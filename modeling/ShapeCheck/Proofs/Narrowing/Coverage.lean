import ShapeCheck.Proofs.Narrowing.Works
import ShapeCheck.Proofs.Semantics.Correctness

set_option autoImplicit false

/-! # What a compilation has covered

A compilation stops at names that are registered already, so it does not look at every type that it comes
to. But it has looked at some subject for every name that is registered in the end: the conditions of this
subject are met, and its parts have names that its predicate calls. Where subjects are told apart, the
others that bear the name are alike, so a root that compiles can be compiled as far as limits allow, and so
can all that it is made of.

An array does not call the predicate of items that may be anything. Such a predicate has been made for a
subject that needs no other, which is the second way in which a body `Relies` on a name.

Main facts: `Subject.compileWithin_covers` (what is known of each predicate) and `Context.Compiles.works`.
-/

namespace ShapeCheck

/-! ## Conditions that are met -/

section
variable {arena : Arena} {ignoreMethods : Bool} {P P' : Reading → Prop} (weaker : ∀ a, P a → P' a)
include weaker

theorem ObjectShape.Works.mono {s : Substitution} {shape : ObjectShape} (h : shape.Works ignoreMethods P s) :
    shape.Works ignoreMethods P' s :=
  ⟨h.1, fun part checks => weaker _ (h.2 part checks)⟩

theorem Descriptor.Works.mono {a : Reading} {descriptor : Descriptor}
    (h : descriptor.Works arena ignoreMethods P a) : descriptor.Works arena ignoreMethods P' a := by
  cases descriptor with
  | array element => exact weaker _ h
  | tuple elements => exact fun element inside => weaker _ (h element inside)
  | object shape => exact ObjectShape.Works.mono weaker h
  | union members => exact fun member inside => weaker _ (h member inside)
  | intersection members => exact fun member inside => weaker _ (h member inside)
  | reference target arguments =>
    obtain ⟨definition, bindings, leads, bound, works⟩ := h
    refine ⟨definition, bindings, leads, bound, ?_⟩
    cases works with
    | body plain given here => exact .body plain given (weaker _ here)
    | merged derived merged here => exact .merged derived merged (here.mono weaker)
  | indexAccess whole index =>
    obtain ⟨lists, fills, each, named⟩ := h
    exact ⟨lists, fills, fun choice inside => weaker _ (each choice inside), named⟩
  | _ => exact h

end

namespace Subject

section
variable (arena : Arena) (ignoreMethods : Bool) (root : Subject) (K : String → Prop)

/-- The part bears a name of the set, checked for superfluous keys or not. -/
def IsMet (choice : Choice) : Prop :=
  ∃ exact own name, IsBuilt arena root (.ofChoice exact choice) ∧
    Bears arena own (.ofChoice exact choice) name ∧ K name

/-- All parts of the subject bear names of the set, and its other conditions hold. -/
def Complete : Subject → Prop
  | .ofType _ a => ∃ descriptor, arena.lookup? a.2 = some descriptor ∧
      descriptor.Works arena ignoreMethods (fun part => ∃ leftOut, IsMet arena root K ⟨part, leftOut⟩) a
  | .optional _ a => IsMet arena root K ⟨a, false⟩
  | .keySet _ => True

/-- The name is one of a subject whose parts bear names of the set. -/
def Covered (name : String) : Prop :=
  ∃ subject, IsBuilt arena root subject ∧ Bears arena true subject name ∧
    Complete arena ignoreMethods root K subject

/-- The name is one of a subject that has no parts. -/
def Idle : String → Prop := Covered arena ignoreMethods root fun _ => False

/-- A body calls the name, or it says more than that everything is accepted, and the name is idle. -/
def Relies (stmts : List Stmt) (name : String) : Prop :=
  name ∈ Stmt.calls stmts ∨ stmts ≠ [.result (.bool true)] ∧ Idle arena ignoreMethods root name

/-- All finished predicates rely on what their subjects need. -/
def AllCovered : Registry → Prop :=
  Registry.Holds fun p => Covered arena ignoreMethods root (Relies arena ignoreMethods root p.body) p.name

end

variable {arena : Arena} {ignoreMethods : Bool} {root : Subject} {K K' : String → Prop}

theorem IsMet.mono {choice : Choice} (h : IsMet arena root K choice) (weaker : ∀ name, K name → K' name) :
    IsMet arena root K' choice :=
  let ⟨exact, own, name, built, bears, inside⟩ := h
  ⟨exact, own, name, built, bears, weaker name inside⟩

theorem Complete.mono {subject : Subject} (h : Complete arena ignoreMethods root K subject)
    (weaker : ∀ name, K name → K' name) : Complete arena ignoreMethods root K' subject := by
  cases subject with
  | ofType exact a =>
    obtain ⟨descriptor, found, works⟩ := h
    exact ⟨descriptor, found, works.mono fun _ ⟨leftOut, met⟩ => ⟨leftOut, met.mono weaker⟩⟩
  | optional exact a => exact IsMet.mono h weaker
  | keySet keys => trivial

theorem Covered.mono {name : String} (h : Covered arena ignoreMethods root K name)
    (weaker : ∀ name, K name → K' name) : Covered arena ignoreMethods root K' name :=
  let ⟨subject, built, bears, complete⟩ := h
  ⟨subject, built, bears, complete.mono weaker⟩

theorem not_relies_true {name : String} :
    ¬ Relies arena ignoreMethods root [.result (.bool true)] name := by
  rintro (called | ⟨different, -⟩)
  · cases called
  · exact different rfl

/-- A predicate that accepts everything is one of a subject without parts. -/
theorem AllCovered.idle {r : Registry} (h : AllCovered arena ignoreMethods root r) {name : String}
    (always : r.isAlwaysTrue name = true) : Idle arena ignoreMethods root name := by
  obtain ⟨p, rfl, covered, accepts⟩ := Registry.Holds.of_isAlwaysTrue h always
  rw [Predicate.isAlwaysTrue_iff.1 accepts] at covered
  exact covered.mono fun _ => not_relies_true

/-! ## Bodies rely on what their parts are called -/

section
variable {compile : Context → TypeId → Build String} {ctx : Context} {R : TypeId → String → Prop}

theorem arrayBody_covers {element : TypeId}
    (compiled : Keeps (AllCovered arena ignoreMethods root) (compile ctx element) (R element)) :
    Keeps (AllCovered arena ignoreMethods root) (arrayBody compile ctx element) fun stmts =>
      ∃ name, R element name ∧ Relies arena ignoreMethods root stmts name := by
  unfold arrayBody
  refine compiled.bind fun name named => Keeps.get_bind fun r covered => ?_
  split
  · rename_i always
    exact .pure ⟨name, named, .inr ⟨nofun, covered.idle always⟩⟩
  · exact .pure ⟨name, named, .inl List.mem_cons_self⟩

theorem elementTests_covers {I : Registry → Prop} {R : TupleElement → String → Prop}
    {elements : List TupleElement}
    (compiled : ∀ element ∈ elements, Keeps I (compilePart compile ctx element.type element.optional) (R element))
    (position : Nat) : Keeps I (elementTests compile ctx position elements) fun tests =>
      ∀ element ∈ elements, ∃ name, R element name ∧ name ∈ tests.flatMap Expr.calls := by
  induction elements generalizing position with
  | nil => exact .pure nofun
  | cons element rest ih =>
    refine (compiled element List.mem_cons_self).bind fun name named => ?_
    refine (ih (fun other inside => compiled other (List.mem_cons_of_mem _ inside)) (position + 1)).bind
      fun tests below => .pure fun other inside => ?_
    rw [List.flatMap_cons]
    rcases List.mem_cons.1 inside with rfl | inside
    · exact ⟨name, named, List.mem_append_left _ List.mem_cons_self⟩
    · obtain ⟨name', named', called⟩ := below other inside
      exact ⟨name', named', List.mem_append_right _ called⟩

theorem tupleCheck_covers {I : Registry → Prop} {R : TupleElement → String → Prop}
    {elements : List TupleElement}
    (compiled : ∀ element ∈ elements,
      Keeps I (compilePart compile ctx element.type element.optional) (R element)) :
    Keeps I (tupleCheck compile ctx elements) fun e =>
      ∀ element ∈ elements, ∃ name, R element name ∧ name ∈ e.calls := by
  refine (elementTests_covers compiled 0).bind fun tests called => .pure fun element inside => ?_
  obtain ⟨name, named, called⟩ := called element inside
  refine ⟨name, named, ?_⟩
  rw [Expr.calls_and, List.flatMap_append]
  exact List.mem_append_right _ called

theorem propertyTest?_covers {I : Registry → Prop} {property : Property}
    (compiled : property.symbolKeyed = false → property.method = false → ∀ part, property.type = some part →
      Keeps I (compile ctx part) (R part)) :
    Keeps I (propertyTest? compile ctx property) fun test? => property.symbolKeyed = false →
      if property.method then ctx.options.ignoreMethods = true
      else ∃ part name, property.type = some part ∧ R part name ∧ name ∈ test?.toList.flatMap Expr.calls := by
  unfold propertyTest?
  split
  · rename_i symbols
    exact .pure fun texts => absurd (symbols.symm.trans texts) nofun
  rename_i texts
  split
  · split
    · rename_i ignored
      exact .pure fun _ => ignored
    · exact .throw _
  rename_i field
  simp only [Bool.not_eq_true] at texts field
  split
  · exact .throw _
  · rename_i part typed
    refine (compiled texts field part typed).bind fun name named => .pure fun _ => ?_
    refine ⟨part, name, typed, named, ?_⟩
    dsimp only [Option.toList]
    split <;> exact List.mem_cons_self

theorem keyLoop_covers {shape : ObjectShape}
    (compiled : ∀ part, shape.index = some part →
      Keeps (AllCovered arena ignoreMethods root) (compile ctx part) (R part)) :
    Keeps (AllCovered arena ignoreMethods root) (keyLoop compile ctx shape) fun loops =>
      ∀ part, shape.index = some part →
        ∃ name, R part name ∧ (name ∈ Stmt.calls loops ∨ Idle arena ignoreMethods root name) := by
  unfold keyLoop
  split
  · rename_i type indexed
    refine (compiled type indexed).bind fun name named => Keeps.get_bind fun r covered => .pure ?_
    intro part same
    cases indexed.symm.trans same
    refine ⟨name, named, ?_⟩
    split
    · rename_i always
      exact .inr (covered.idle always)
    · exact .inl List.mem_cons_self
  · rename_i none
    exact .pure fun part indexed => absurd (none.symm.trans indexed) nofun

theorem objectBody_covers {shape : ObjectShape}
    (compiled : ∀ part, shape.Checks part →
      Keeps (AllCovered arena ctx.options.ignoreMethods root) (compile ctx part) (R part)) :
    Keeps (AllCovered arena ctx.options.ignoreMethods root) (objectBody compile ctx shape) fun stmts =>
      shape.IsTyped ctx.options.ignoreMethods ∧
        ∀ part, shape.Checks part →
          ∃ name, R part name ∧ Relies arena ctx.options.ignoreMethods root stmts name := by
  unfold objectBody
  refine (Keeps.filterMapM fun property inside => propertyTest?_covers (R := R)
    fun texts field part typed => compiled part (.inl ⟨property, inside, texts, field, typed⟩)).bind ?_
  rintro tests ⟨found, related, rfl⟩
  refine (keyLoop_covers fun part indexed => compiled part (.inr indexed)).bind fun loops looped => .pure ?_
  have all : (Expr.and (Expr.plainObjectTests .parameter ++ found.filterMap id)).calls =
      found.flatMap fun test? => test?.toList.flatMap Expr.calls := by
    rw [Expr.calls_and, List.flatMap_append, List.filterMap_eq_flatMap_toList, List.flatMap_assoc]
    rfl
  refine ⟨fun property inside texts => ?_, fun part checks => ?_⟩
  · obtain ⟨test?, -, told⟩ := exists_right_of_forall₂ related inside
    have told := told texts
    split
    · rename_i method
      rwa [if_pos method] at told
    · rename_i field
      rw [if_neg field] at told
      obtain ⟨part, -, typed, -⟩ := told
      rw [typed]
      rfl
  have tested : (∃ name, R part name ∧ name ∈ found.flatMap fun test? => test?.toList.flatMap Expr.calls) ∨
      ∃ name, R part name ∧ (name ∈ Stmt.calls loops ∨ Idle arena ctx.options.ignoreMethods root name) := by
    rcases checks with ⟨property, inside, texts, field, typed⟩ | indexed
    · obtain ⟨test?, listed, told⟩ := exists_right_of_forall₂ related inside
      have told := told texts
      rw [if_neg (by simp [field])] at told
      obtain ⟨part', name, typed', named, called⟩ := told
      cases typed.symm.trans typed'
      exact .inl ⟨name, named, List.mem_flatMap.2 ⟨test?, listed, called⟩⟩
    · exact .inr (looped part indexed)
  rcases tested with ⟨name, named, called⟩ | ⟨name, named, called | idle⟩
  · refine ⟨name, named, .inl ?_⟩
    split
    · rw [Stmt.calls_result, all]
      exact called
    · rw [List.cons_append, Stmt.calls_rejectUnless, all]
      exact List.mem_append_left _ called
  · refine ⟨name, named, .inl ?_⟩
    split
    · rename_i none
      rw [List.isEmpty_iff.1 none] at called
      cases called
    · rw [List.cons_append, Stmt.calls_rejectUnless, Stmt.calls_append]
      exact List.mem_append_right _ (List.mem_append_left _ called)
  · refine ⟨name, named, .inr ⟨?_, idle⟩⟩
    split <;> nofun

theorem memberCalls_covers {I : Registry → Prop} {members : List TypeId}
    (compiled : ∀ member ∈ members, Keeps I (compile ctx member) (R member)) :
    Keeps I (memberCalls compile ctx members) fun calls =>
      ∀ member ∈ members, ∃ name, R member name ∧ name ∈ calls.flatMap Expr.calls := by
  refine (Keeps.mapM compiled).bind fun names related => .pure fun member inside => ?_
  obtain ⟨name, listed, named⟩ := exists_right_of_forall₂ related inside
  refine ⟨name, named, ?_⟩
  rw [Expr.flatMap_calls_callOn]
  exact List.mem_eraseDups.2 listed

theorem unionCheck_covers {I : Registry → Prop} {members : List TypeId}
    (compiled : ∀ member ∈ members, Keeps I (compile ctx member) (R member)) :
    Keeps I (unionCheck compile ctx members) fun e =>
      ∀ member ∈ members, ∃ name, R member name ∧ name ∈ e.calls := by
  unfold unionCheck
  split
  · rename_i none
    rw [List.isEmpty_iff.1 none]
    exact .pure nofun
  · refine (memberCalls_covers compiled).bind fun calls called => .pure ?_
    rw [Expr.calls_anyOf]
    exact called

theorem exactKeysPredicate_covers {keys : List String} (built : IsBuilt arena root (.keySet keys)) :
    Keeps (AllCovered arena ignoreMethods root) (exactKeysPredicate keys) fun _ => True :=
  (Build.ensure_keeps (.pure ⟨.keySet keys, built, .keySet keys, trivial⟩)).mono fun _ _ => trivial

theorem intersectionCheck_covers {depth : Nat} {type : TypeId} {members : List TypeId}
    (compiled : ∀ member ∈ members, Keeps (AllCovered arena ignoreMethods root)
      (compile (ctx.withExact false) member) (R member))
    (collected : ctx.exact = true → ∀ keys, ctx.collectKeys depth type = .ok (some keys) →
      IsBuilt arena root (.keySet keys)) :
    Keeps (AllCovered arena ignoreMethods root) (intersectionCheck depth compile ctx type members) fun e =>
      ∀ member ∈ members, ∃ name, R member name ∧ name ∈ e.calls := by
  unfold intersectionCheck
  refine (memberCalls_covers compiled).bind fun calls called => ?_
  have alone : ∀ member ∈ members, ∃ name, R member name ∧ name ∈ (Expr.and calls).calls := by
    rw [Expr.calls_and]
    exact called
  split
  · rename_i exact
    refine Keeps.lift_bind fun keys? found => ?_
    split
    · rename_i keys
      refine (exactKeysPredicate_covers (collected exact keys found)).bind fun name _ => .pure ?_
      intro member inside
      obtain ⟨name, named, called⟩ := called member inside
      refine ⟨name, named, ?_⟩
      rw [Expr.calls_and, List.flatMap_append]
      exact List.mem_append_left _ called
    · exact .pure alone
  · exact .pure alone

end

/-! ## Types in their places -/

section
variable {subject : Subject} {name : String} {reason : Option Reason}

theorem ensure_covers {body : Build (List Stmt)} (built : IsBuilt arena root subject)
    (bears : Bears arena true subject name)
    (h : Keeps (AllCovered arena ignoreMethods root) body fun stmts =>
      Complete arena ignoreMethods root (Relies arena ignoreMethods root stmts) subject) :
    Keeps (AllCovered arena ignoreMethods root) (Build.ensure name reason body) fun _ => True :=
  (Build.ensure_keeps (h.mono fun _ complete => ⟨subject, built, bears, complete⟩)).mono fun _ _ => trivial

theorem ensureExpr_covers {body : Build Expr} (built : IsBuilt arena root subject)
    (bears : Bears arena true subject name)
    (h : Keeps (AllCovered arena ignoreMethods root) body fun e =>
      Complete arena ignoreMethods root (· ∈ e.calls) subject) :
    Keeps (AllCovered arena ignoreMethods root) (Build.ensureExpr name reason body) fun _ => True := by
  refine ensure_covers built bears (h.bind fun e complete => .pure (complete.mono fun name called => .inl ?_))
  rwa [Stmt.calls_result]

end

section
variable {depth : Nat} {compile : Context → TypeId → Build String}
  (compiled : ∀ (options : CompileOptions) (s : Substitution) (type : TypeId),
    options.ignoreMethods = ignoreMethods →
      IsBuilt arena root (.ofType options.superfluousPropertyCheck (s, type)) →
        Keeps (AllCovered arena ignoreMethods root) (compile ⟨arena, options, s⟩ type) fun name =>
          ∃ own, Bears arena own (.ofType options.superfluousPropertyCheck (s, type)) name)
  {options : CompileOptions} (ignores : options.ignoreMethods = ignoreMethods) {s : Substitution}
  {type : TypeId}
include compiled ignores

theorem choice_covers (choice : Choice)
    (built : IsBuilt arena root (.ofChoice options.superfluousPropertyCheck choice)) :
    Keeps (AllCovered arena ignoreMethods root)
      (compilePart compile ⟨arena, options, choice.reading.1⟩ choice.reading.2 choice.optional)
      fun name => ∃ own, Bears arena own (.ofChoice options.superfluousPropertyCheck choice) name := by
  obtain ⟨reading, leftOut⟩ := choice
  unfold compilePart
  cases leftOut with
  | false =>
    simp only [Bool.false_eq_true, if_false, bind_pure]
    exact compiled options reading.1 reading.2 ignores built
  | true =>
    have part : IsBuilt arena root (.ofType options.superfluousPropertyCheck reading) :=
      .tail built (.optional _ reading)
    refine (compiled options _ _ ignores part).bind fun inner ⟨own, bears⟩ => ?_
    have covers : Keeps (AllCovered arena ignoreMethods root) (Build.optional inner) fun _ => True :=
      ensureExpr_covers built (.optional bears)
        (.pure ⟨_, own, inner, part, bears, List.mem_cons_self⟩)
    refine (covers.and_result (Build.keeps_ensure _ _ _)).mono ?_
    rintro _ ⟨-, rfl⟩
    exact ⟨true, .optional bears⟩

/-- The contents of a definition, entered through a reference. -/
theorem referenceBody_covers {target : DefinitionId} {arguments : List TypeId} {definition : Definition}
    (found : arena.lookup? type = some (.reference target arguments))
    (leads : arena.definition? target = some definition)
    (built : IsBuilt arena root (.ofType options.superfluousPropertyCheck (s, type))) :
    Keeps (AllCovered arena ignoreMethods root) (referenceBody compile ⟨arena, options, s⟩ definition arguments)
      fun stmts => Complete arena ignoreMethods root (Relies arena ignoreMethods root stmts)
        (.ofType options.superfluousPropertyCheck (s, type)) := by
  unfold referenceBody
  refine Keeps.lift_bind fun inside entered => ?_
  obtain ⟨t, opened, made⟩ := bind_eq_ok.1 entered
  obtain rfl := Except.ok.inj made
  obtain ⟨bindings, bound, rfl⟩ := Substitution.enter_eq_within opened
  refine Keeps.lift_bind fun body given => ?_
  have given : definition.body = some body := Definition.requireBody_eq_ok.1 given
  split
  · rename_i none
    have plain : definition.bases = [] := List.isEmpty_iff.1 none
    have part := Relation.ReflTransGen.tail built (.body found leads opened given plain)
    refine (compiled options _ _ ignores part).bind fun name ⟨own, bears⟩ => .pure ?_
    refine ⟨_, found, definition, bindings, leads, bound, .body plain given ?_⟩
    exact ⟨false, _, own, name, part, bears, .inl List.mem_cons_self⟩
  · rename_i some
    have derived : definition.bases ≠ [] := fun none => some (List.isEmpty_iff.2 none)
    refine Keeps.lift_bind fun shape merged => ?_
    subst ignores
    have part (part : TypeId) (checks : shape.Checks part) :=
      Relation.ReflTransGen.tail built (.inherited found leads opened derived merged checks)
    refine (objectBody_covers fun _ checks => compiled options _ _ rfl (part _ checks)).mono ?_
    rintro stmts ⟨typed, each⟩
    refine ⟨_, found, definition, bindings, leads, bound, .merged derived merged ⟨typed, ?_⟩⟩
    intro part' checks
    obtain ⟨name, ⟨own, bears⟩, relies⟩ := each part' checks
    exact ⟨false, _, own, name, part part' checks, bears, relies⟩

variable (number : arena.lookup? (.ofKeyword .number) = some (.keyword .number))
include number

/-- An access finds the names of its members, or its predicate calls them. -/
theorem compileIndexAccess_covers {whole index : TypeId}
    (found : arena.lookup? type = some (.indexAccess whole index))
    (built : IsBuilt arena root (.ofType options.superfluousPropertyCheck (s, type))) :
    Keeps (AllCovered arena ignoreMethods root)
      (compileIndexAccess depth compile ⟨arena, options, s⟩ type whole index) fun _ => True := by
  unfold compileIndexAccess
  refine Keeps.lift_bind fun keys indexed => (selectedMembers_keeps
    (fun choice => choice_covers compiled ignores choice) found built indexed).bind ?_
  rintro names ⟨lists, chosen, covers, full⟩
  split
  · exact .throw _
  · exact .pure trivial
  · rename_i none single
    refine Keeps.lift_bind fun name spelled => ?_
    have filled : AreFilled lists := by
      refine ⟨?_, full⟩
      rintro rfl
      cases covers
      exact none rfl
    have bears := bears_of_several number found chosen filled covers none single spelled
    refine ensureExpr_covers built bears (.pure ⟨_, found, lists, ?_, fun choice inside => ?_, .inl ?_⟩)
    · exact ⟨s, whole, index, options, depth, .refl arena _, .refl arena _, chosen, filled⟩
    · obtain ⟨name, listed, own, bears⟩ := (Covers.flatten covers).named choice inside
      refine ⟨choice.optional, _, own, name, .tail built (.choice found chosen inside), bears, ?_⟩
      rw [Expr.calls_or, Expr.flatMap_calls_callOn]
      exact List.mem_eraseDups.2 listed
    · exact ⟨(s, type), _, depth, name, .refl arena _, spelled⟩

/-- The predicate of a descriptor relies on what its subject needs. -/
theorem compileDescriptor_covers {descriptor : Descriptor} (found : arena.lookup? type = some descriptor)
    (built : IsBuilt arena root (.ofType options.superfluousPropertyCheck (s, type))) :
    Keeps (AllCovered arena ignoreMethods root)
      (compileDescriptor depth compile ⟨arena, options, s⟩ type descriptor) fun _ => True := by
  have bears {m : Nat} {name : String} (plain : descriptor.forwards = false)
      (spelled : typeNameWithin arena m s options.superfluousPropertyCheck type = .ok name) :
      Bears arena true (.ofType options.superfluousPropertyCheck (s, type)) name := .type found plain spelled
  have part {part : TypeId} (needed : Needs arena (.ofType options.superfluousPropertyCheck (s, type))
      (.ofType options.superfluousPropertyCheck (s, part))) := Relation.ReflTransGen.tail built needed
  unfold compileDescriptor
  split
  · rename_i leaf isLeaf
    have plain : descriptor.forwards = false := by
      cases descriptor <;> first | rfl | cases isLeaf
    have spelled : typeNameWithin arena 1 s options.superfluousPropertyCheck type = .ok leaf.name := by
      rw [typeNameWithin, Arena.lookup_eq_ok.2 found]
      exact descriptor.leaf?_name isLeaf arena _ _ _
    refine ensureExpr_covers built (bears plain spelled) (.pure ⟨descriptor, found, ?_⟩)
    cases descriptor <;> first | exact Option.isSome_of_eq_some isLeaf | cases isLeaf
  cases descriptor with
  | array element =>
    refine Keeps.lift_bind fun name spelled => ensure_covers built (bears rfl spelled) ?_
    refine (arrayBody_covers (R := fun part name =>
      ∃ own, Bears arena own (.ofType options.superfluousPropertyCheck (s, part)) name)
      (compiled options s element ignores (part (.element found)))).mono ?_
    rintro stmts ⟨name, ⟨own, bears⟩, relies⟩
    exact ⟨_, found, false, _, own, name, part (.element found), bears, relies⟩
  | tuple elements =>
    refine Keeps.lift_bind fun name spelled => ensureExpr_covers built (bears rfl spelled) ?_
    have choice (element : TupleElement) (inside : element ∈ elements) : IsBuilt arena root
        (.ofChoice options.superfluousPropertyCheck ⟨(s, element.type), element.optional⟩) :=
      .tail built (.position found inside)
    refine (tupleCheck_covers fun element inside => choice_covers compiled ignores
      ⟨(s, element.type), element.optional⟩ (choice element inside)).mono fun e called => ?_
    refine ⟨_, found, fun element inside => ?_⟩
    obtain ⟨name, ⟨own, bears⟩, listed⟩ := called element inside
    exact ⟨element.optional, _, own, name, choice element inside, bears, listed⟩
  | object shape =>
    subst ignores
    refine Keeps.lift_bind fun name spelled => ensure_covers built (bears rfl spelled) ?_
    refine (objectBody_covers fun _ checks => compiled options s _ rfl (part (.member found checks))).mono ?_
    rintro stmts ⟨typed, each⟩
    refine ⟨_, found, typed, fun member checks => ?_⟩
    obtain ⟨name, ⟨own, bears⟩, relies⟩ := each member checks
    exact ⟨false, _, own, name, part (.member found checks), bears, relies⟩
  | union members =>
    refine Keeps.lift_bind fun name spelled => ensureExpr_covers built (bears rfl spelled) ?_
    refine (unionCheck_covers fun member inside =>
      compiled options s member ignores (part (.alternative found inside))).mono fun e called => ?_
    refine ⟨_, found, fun member inside => ?_⟩
    obtain ⟨name, ⟨own, bears⟩, listed⟩ := called member inside
    exact ⟨false, _, own, name, part (.alternative found inside), bears, listed⟩
  | intersection members =>
    refine Keeps.lift_bind fun name spelled => ensureExpr_covers built (bears rfl spelled) ?_
    have conjunct (member : TypeId) (inside : member ∈ members) :
        IsBuilt arena root (.ofType false (s, member)) := .tail built (.conjunct found inside)
    refine (intersectionCheck_covers (fun member inside =>
      compiled { options with superfluousPropertyCheck := false } s member ignores (conjunct member inside))
      fun exact keys collected => ?_).mono fun e called => ?_
    · have exact : options.superfluousPropertyCheck = true := exact
      rw [exact] at built
      exact .tail built (.keys found collected)
    · refine ⟨_, found, fun member inside => ?_⟩
      obtain ⟨name, ⟨own, bears⟩, listed⟩ := called member inside
      exact ⟨false, _, own, name, conjunct member inside, bears, listed⟩
  | reference target arguments =>
    refine Keeps.lift_bind fun definition leads => Keeps.lift_bind fun name spelled => ?_
    exact ensure_covers built (bears rfl spelled)
      (referenceBody_covers compiled ignores found (Arena.target_eq_ok.1 leads) built)
  | parameter id =>
    refine Keeps.lift_bind fun stood stands => ?_
    obtain ⟨target, visible⟩ := stood
    obtain ⟨outer, resolved, rfl⟩ := Context.resolve_eq_ok stands
    exact (compiled options outer target ignores (.tail built (.parameter found resolved))).mono
      fun _ _ => trivial
  | indexAccess whole index => exact compileIndexAccess_covers compiled ignores number found built
  | keyof operand =>
    refine Keeps.lift_bind fun name spelled => ensureExpr_covers built (bears rfl spelled) ?_
    unfold keyofCheck
    refine Keeps.lift_bind fun keys? collected => ?_
    have complete (e : Expr) : Complete arena ignoreMethods root (· ∈ e.calls)
        (.ofType options.superfluousPropertyCheck (s, type)) :=
      ⟨_, found, keys?, (s, operand), options, depth, .refl arena _, collected⟩
    split <;> exact .pure (complete _)
  | _ => exact .throw _

end

section
variable (number : arena.lookup? (.ofKeyword .number) = some (.keyword .number))
include number

/-- Each predicate that is built relies on what its subject needs. -/
theorem compileWithin_covers (depth : Nat) (options : CompileOptions) (s : Substitution) (type : TypeId)
    (ignores : options.ignoreMethods = ignoreMethods)
    (built : IsBuilt arena root (.ofType options.superfluousPropertyCheck (s, type))) :
    Keeps (AllCovered arena ignoreMethods root) (compileWithin depth ⟨arena, options, s⟩ type) fun name =>
      ∃ own, Bears arena own (.ofType options.superfluousPropertyCheck (s, type)) name := by
  refine (Keeps.and_result (Q := fun _ => True) ?_ (bears_compileWithin number depth options s type)).mono
    fun _ both => both.2
  induction depth generalizing options s type with
  | zero => exact .throw _
  | succ depth ih =>
    refine Keeps.lift_bind fun descriptor found => ?_
    refine compileDescriptor_covers (fun options s type ignores built => ?_) ignores number
      (Arena.lookup_eq_ok.1 found) built
    exact (Keeps.and_result (ih options s type ignores built)
      (bears_compileWithin number depth options s type)).mono fun _ both => both.2

/-- So does each one that is built for a root, which has a name. -/
theorem compileRoot_covers (options : CompileOptions) (s : Substitution) (type : TypeId)
    (ignores : options.ignoreMethods = ignoreMethods)
    (built : IsBuilt arena root (.ofRoot options (s, type))) :
    Keeps (AllCovered arena ignoreMethods root) (Context.compileRoot ⟨arena, options, s⟩ type) fun name =>
      ∃ own, Bears arena own (.ofRoot options (s, type)) name := by
  unfold Context.compileRoot
  unfold ofRoot at built ⊢
  cases short : options.shortCircuit with
  | true =>
    simp only [short, if_true] at built ⊢
    exact compileWithin_covers number _ options s _ ignores built
  | false =>
    simp only [short, Bool.false_eq_true, if_false] at built ⊢
    have part (leftOut : Bool) (built : IsBuilt arena root
        (.ofChoice options.superfluousPropertyCheck ⟨(s, type), leftOut⟩)) :=
      choice_covers (compileWithin_covers number maxUnfoldingDepth) ignores ⟨(s, type), leftOut⟩ built
    cases absent : options.valueMayBeAbsent with
    | false =>
      rw [absent] at built
      exact part false built
    | true =>
      rw [absent] at built
      exact part true built

end

/-! ## Everything is covered in the end -/

section
variable (closed : ∀ name, K name → Covered arena ignoreMethods root K name)
  (apart : ToldApart arena root)
include closed apart

/-- A part that may be left out has a predicate that calls the one of its type. -/
theorem IsMet.exists_required {choice : Choice} (h : IsMet arena root K choice) :
    ∃ b, arena.Alike b choice.reading ∧ IsMet arena root K ⟨b, false⟩ := by
  obtain ⟨a, leftOut⟩ := choice
  cases leftOut with
  | false => exact ⟨a, .refl arena a, h⟩
  | true =>
    obtain ⟨exact, own, name, built, bears, inside⟩ := h
    obtain ⟨subject, built', bears', complete⟩ := closed name inside
    cases bears with
    | optional below =>
      have alike := apart _ _ _ built' built bears' (.optional below)
      cases subject with
      | ofType | keySet => exact alike.elim
      | optional exact' a' => exact ⟨a', alike.1, complete⟩

/-- The conditions of a type are met by the subject that its name is registered for. -/
theorem worksAt_of_own {exact : Bool} {a : Reading} {name : String}
    (built : IsBuilt arena root (.ofType exact a)) (bears : Bears arena true (.ofType exact a) name)
    (inside : K name) :
    arena.WorksAt ignoreMethods (fun a => ∃ b, arena.Alike b a ∧ IsMet arena root K ⟨b, false⟩) a := by
  obtain ⟨subject, built', bears', complete⟩ := closed name inside
  have alike := apart _ _ name built' built bears' bears
  cases subject with
  | optional | keySet => exact alike.elim
  | ofType exact' a' =>
    obtain ⟨descriptor, found, works⟩ := complete
    have here : arena.WorksAt ignoreMethods (fun part => ∃ leftOut, IsMet arena root K ⟨part, leftOut⟩) a' := by
      refine ⟨a', descriptor, .itself fun id parameter => ?_, found, fun plain => ?_, works⟩
      · rw [found] at parameter
        obtain rfl := Option.some.inj parameter
        exact absurd works nofun
      · cases bears' with
        | type _ _ spelled => exact ⟨_, _, _, name, .refl arena _, spelled⟩
        | several _ _ _ _ _ _ _ spelled => exact ⟨_, _, _, name, .refl arena _, spelled⟩
    refine here.transfer (fun c d same ⟨leftOut, met⟩ => ?_) alike.1
    obtain ⟨b, alike, met⟩ := met.exists_required closed apart
    exact ⟨b, alike.trans same, met⟩

variable (number : arena.lookup? (.ofKeyword .number) = some (.keyword .number))
include number

/-- The conditions of a type are met if its name is covered. -/
theorem worksAt_of_bears {own exact : Bool} {a : Reading} {name : String}
    (built : IsBuilt arena root (.ofType exact a)) (bears : Bears arena own (.ofType exact a) name)
    (inside : K name) :
    arena.WorksAt ignoreMethods (fun a => ∃ b, arena.Alike b a ∧ IsMet arena root K ⟨b, false⟩) a := by
  generalize same : Subject.ofType exact a = subject at bears
  induction bears generalizing a with
  | type found plain spelled =>
    cases same
    exact worksAt_of_own closed apart built (.type found plain spelled) inside
  | parameter found stands below ih =>
    cases same
    have target := ih (.tail built (.parameter found stands)) inside rfl
    refine target.transfer (fun c d same ⟨b, alike, met⟩ => ⟨b, alike.trans same, met⟩) ?_
    exact (Arena.standsFor_of_resolveWithin found stands).alike.symm
  | @single own exact s type whole index options depth lists name found chosen filled each =>
    cases same
    have part {choice : Choice} (inside : choice ∈ lists.flatten) :
        IsBuilt arena root (.ofChoice exact choice) := .tail built (.choice found chosen inside)
    refine ⟨(s, type), _, .itself fun id parameter => ?_, found, nofun, lists, ?_, ?_, .inr ?_⟩
    · cases found.symm.trans parameter
    · exact ⟨s, whole, index, options, depth, .refl arena _, .refl arena _, chosen, filled⟩
    · intro choice listed
      exact IsMet.exists_required closed apart
        ⟨exact, own choice, name, part listed, each choice listed, inside⟩
    · intro one listed two listed'
      have alike := (each one listed).namedAlike number apart (part listed) (part listed') (each two listed')
      unfold NamedAlike at alike ⊢
      simpa only [loosely_ofChoice] using alike
  | several found chosen filled each inside' inside'' different spelled =>
    cases same
    exact worksAt_of_own closed apart built
      (.several found chosen filled each inside' inside'' different spelled) inside
  | optional | keySet => cases same

/-- A type whose name is covered can be compiled as far as limits allow. -/
theorem works_of_isMet {choice : Choice} (met : IsMet arena root K choice) :
    arena.Works ignoreMethods choice.reading := by
  obtain ⟨b, alike, met⟩ := met.exists_required closed apart
  refine .of_closed (P := fun a => IsMet arena root K ⟨a, false⟩) ?_ alike met
  rintro a ⟨exact, own, name, built, bears, inside⟩
  exact worksAt_of_bears closed apart number built bears inside

end

end Subject

theorem Subject.works_ofChoice {arena : Arena} {ignoreMethods exact : Bool} {choice : Choice} :
    (ofChoice exact choice).Works arena ignoreMethods ↔ arena.Works ignoreMethods choice.reading := by
  unfold ofChoice
  split <;> rfl

theorem Subject.exists_ofRoot_eq_ofChoice (options : CompileOptions) (a : Reading) :
    ∃ choice, ofRoot options a = ofChoice options.superfluousPropertyCheck choice := by
  unfold ofRoot
  split
  · exact ⟨⟨_, false⟩, rfl⟩
  split
  · exact ⟨⟨a, true⟩, rfl⟩
  · exact ⟨⟨a, false⟩, rfl⟩

/-- What is compiled, where subjects are told apart, can be compiled as far as limits allow, whatever is
checked of superfluous keys. -/
theorem Context.Compiles.works {arena : Arena}
    (number : arena.lookup? (.ofKeyword .number) = some (.keyword .number)) {options : CompileOptions}
    {s : Substitution} {type : TypeId} {v : Validator}
    (compiled : Context.Compiles ⟨arena, options, s⟩ type v)
    (apart : Subject.ToldApart arena (.ofRoot options (s, type))) :
    (Subject.ofRoot options (s, type)).Works arena options.ignoreMethods := by
  obtain ⟨root, registry, outcome, rfl⟩ := compiled
  obtain ⟨covered, own, bears⟩ := Subject.compileRoot_covers number options s type rfl .refl _ _ _ outcome
    Registry.holds_empty
  obtain ⟨sealed_, -, used⟩ := compileRoot_seals _ type _ _ _ outcome Registry.isSealed_empty nofun
  have finished := (compileRoot_seals _ type).isPending outcome
  -- names that are registered, and those on which arrays rely without calling them
  have closed (name : String) (h : registry.contains name = true ∨
      Subject.Idle arena options.ignoreMethods (.ofRoot options (s, type)) name) :
      Subject.Covered arena options.ignoreMethods (.ofRoot options (s, type)) (fun name =>
        registry.contains name = true ∨
          Subject.Idle arena options.ignoreMethods (.ofRoot options (s, type)) name) name := by
    rcases h with there | idle
    · obtain ⟨p, inside, rfl⟩ := List.mem_map.1 (covered.exists_predicate there (finished name))
      exact (covered.good inside).mono fun name relies =>
        relies.imp (sealed_.good inside name) And.right
    · exact idle.mono fun _ => False.elim
  have there : registry.contains root = true := used root List.mem_cons_self
  obtain ⟨choice, same⟩ := Subject.exists_ofRoot_eq_ofChoice options (s, type)
  rw [same, Subject.works_ofChoice]
  rw [same] at bears
  exact Subject.works_of_isMet closed apart number ⟨_, own, root, same ▸ .refl, bears, .inl there⟩

end ShapeCheck
