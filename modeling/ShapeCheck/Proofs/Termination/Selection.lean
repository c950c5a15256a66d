import ShapeCheck.Compile.Composite
import ShapeCheck.Proofs.Keeps
import ShapeCheck.Proofs.Compilation.Registry
import ShapeCheck.Proofs.Meaning.Keys
import ShapeCheck.Proofs.Repetitions
import ShapeCheck.Proofs.Termination.Spelling

set_option autoImplicit false

/-! # The members that an indexed access selects

An indexed access is compiled as the members that its index selects, before any name of its own is
known. `Context.Selects` says which members these are, without compiling them, so that it can be said
that an access leads back to itself. The walks that look for keys take a bounded number of steps.

Main facts: `settles_membersWithin` (the members of a type settle if those that are selected do) and
`settled_indexKeys`.
-/

namespace ShapeCheck

/-! ## Selected members -/

/-- The declared member of an object that a key selects. -/
def ObjectShape.declared? (shape : ObjectShape) : IndexKey → Option Property
  | .name name => shape.property? name
  | .number x => shape.property? x.text
  | .anyString | .anyNumber => none

/-- The types of the members that an object, an array or a tuple has under a key. -/
def Descriptor.membersAt (key : IndexKey) : Descriptor → List TypeId
  | .object shape =>
    match shape.declared? key with
    | some property => if property.method then [] else property.type.toList
    | none => shape.index.toList
  | .array element =>
    match key with
    | .number _ | .anyNumber => [element]
    | .name "length" => [.ofKeyword .number]
    | _ => []
  | .tuple elements =>
    match key with
    | .number x => (if x.isPosition then elements[x.toPosition]? else none).toList.map (·.type)
    | .anyNumber => elements.map (·.type)
    | .name "length" => [.ofKeyword .number]
    | _ => []
  | _ => []

/-- The first of some types that satisfies a property is this one. -/
def IsFirst (P : TypeId → Prop) (types : List TypeId) (type : TypeId) : Prop :=
  ∃ before after, types = before ++ type :: after ∧ P type ∧ ∀ earlier ∈ before, ¬ P earlier

theorem IsFirst.mem {P : TypeId → Prop} {types : List TypeId} {type : TypeId}
    (h : IsFirst P types type) : type ∈ types := by
  obtain ⟨before, after, rfl, -, -⟩ := h
  simp

/-- A key selects a member of a type, for a number of steps. Of the members of an intersection, and of
a body and its bases, the first that has the key decides. -/
def Context.Selects (key : IndexKey) : Nat → Context → TypeId → Context × TypeId → Prop
  | 0, _, _, _ => False
  | steps + 1, ctx, type, member =>
    match ctx.arena.lookup? type with
    | some (.reference target arguments) =>
      ∃ definition inside body part, ctx.arena.definition? target = some definition ∧
        ctx.enter definition arguments = .ok inside ∧ definition.body = some body ∧
          IsFirst (fun part => ∃ other, Selects key steps inside part other) (body :: definition.bases)
            part ∧
          Selects key steps inside part member
    | some (.parameter id) =>
      ∃ target visible, ctx.resolve id = .ok (target, visible) ∧
        Selects key steps visible target member
    | some (.union members) => ∃ part ∈ members, Selects key steps ctx part member
    | some (.intersection members) =>
      ∃ part, IsFirst (fun part => ∃ other, Selects key steps ctx part other) members part ∧
        Selects key steps ctx part member
    | some descriptor => member.1 = ctx ∧ member.2 ∈ descriptor.membersAt key
    | none => False

/-- A type is compiled as another one, before a name is known. -/
inductive Context.LeadsTo : Context × TypeId → Context × TypeId → Prop
  | parameter {ctx visible : Context} {type target : TypeId} {id : ParameterId}
      (found : ctx.arena.lookup? type = some (.parameter id))
      (stands : ctx.resolve id = .ok (target, visible)) : LeadsTo (ctx, type) (visible, target)
  | member {ctx : Context} {type whole index : TypeId} {depth : Nat} {keys : List IndexKey}
      {key : IndexKey} {member : Context × TypeId}
      (found : ctx.arena.lookup? type = some (.indexAccess whole index))
      (indexed : ctx.indexKeys depth index = .ok keys) (inside : key ∈ keys)
      (selects : ctx.Selects key maxResolutionSteps whole member) : LeadsTo (ctx, type) member

/-! ## What is found is what is selected -/

section
variable {key : IndexKey} {ctx : Context} {compile : Context → TypeId → Build String}

/-- The names that are found are not none if there is something to find. -/
def TellsEmpty (P : Prop) (found : List String) : Prop := found = [] → ¬ P

theorem keeps_firstNonempty {P : TypeId → Prop} {find : TypeId → Build (List String)}
    (h : ∀ type, Keeps (fun _ => True) (find type) (TellsEmpty (P type))) (types : List TypeId) :
    Keeps (fun _ => True) (firstNonempty find types) (TellsEmpty (∃ type ∈ types, P type)) := by
  induction types with
  | nil => exact .pure fun _ => by simp
  | cons type rest ih =>
    refine (h type).bind fun found here => ?_
    by_cases empty : found = []
    · simp only [empty, List.isEmpty_nil, if_true]
      refine ih.mono fun found' below none => ?_
      simp only [List.mem_cons, exists_eq_or_imp, not_or]
      exact ⟨here empty, below none⟩
    · have nonempty : found.isEmpty = false := by simpa using empty
      simp only [nonempty]
      exact .pure fun none => absurd none empty

theorem keeps_single (m : Build String) (P : Prop) :
    Keeps (fun _ => True) (do return [← m]) (TellsEmpty P) := by
  intro r found r' made _
  obtain ⟨name, between, _, ended⟩ := gives_bind.1 made
  obtain ⟨rfl, -⟩ := gives_pure.1 ended
  exact ⟨trivial, nofun⟩

theorem objectMembers_eq (shape : ObjectShape) :
    objectMembers compile ctx shape key =
      match shape.declared? key with
      | some property =>
        if property.method then return []
        else
          match property.type with
          | none => throw (.unsupportedProperty property.name)
          | some type => return [← compilePart compile ctx type property.optional]
      | none =>
        match shape.index with
        | some type => return [← compile ctx type]
        | none => return [] := by
  cases key <;> rfl

theorem keeps_objectMembers (shape : ObjectShape) :
    Keeps (fun _ => True) (objectMembers compile ctx shape key)
      (TellsEmpty (∃ type, type ∈ (Descriptor.object shape).membersAt key)) := by
  rw [objectMembers_eq]
  cases declared : shape.declared? key with
  | some property =>
    dsimp only
    split
    · rename_i method
      exact .pure fun _ => by simp [Descriptor.membersAt, declared, method]
    · split
      · exact .throw _
      · exact keeps_single _ _
  | none =>
    cases index : shape.index with
    | some type => exact keeps_single _ _
    | none => exact .pure fun _ => by simp [Descriptor.membersAt, declared, index]

theorem keeps_arrayMembers (element : TypeId) :
    Keeps (fun _ => True) (arrayMembers compile ctx element key)
      (TellsEmpty (∃ type, type ∈ (Descriptor.array element).membersAt key)) := by
  unfold arrayMembers Descriptor.membersAt
  split
  · exact keeps_single _ _
  · exact keeps_single _ _
  · exact keeps_single _ _
  · exact .pure fun _ => by split <;> simp_all

theorem keeps_tupleMembers (elements : List TupleElement) :
    Keeps (fun _ => True) (tupleMembers compile ctx elements key)
      (TellsEmpty (∃ type, type ∈ (Descriptor.tuple elements).membersAt key)) := by
  unfold tupleMembers Descriptor.membersAt
  split
  · split
    · exact keeps_single _ _
    · rename_i none
      exact .pure fun _ => by simp [none]
  · refine (Keeps.mapM (R := fun _ _ => True) fun element _ => ?_).bind fun names related => ?_
    · exact fun _ _ _ _ _ => ⟨trivial, trivial⟩
    · refine .pure fun none => ?_
      cases eq_nil_of_eraseDups none
      cases related
      simp
  · exact keeps_single _ _
  · exact .pure fun _ => by split <;> simp_all

/-- Where no member is found there is none to select. -/
theorem keeps_membersWithin (steps : Nat) (ctx : Context) (type : TypeId) :
    Keeps (fun _ => True) (membersWithin compile key steps ctx type)
      (TellsEmpty (∃ member, ctx.Selects key steps type member)) := by
  induction steps generalizing ctx type with
  | zero => exact .throw _
  | succ steps ih =>
    unfold membersWithin Context.Selects
    refine Keeps.lift_bind fun descriptor found => ?_
    have found : ctx.arena.lookup? type = some descriptor := by
      unfold Arena.lookup at found
      split at found <;> simp_all
    cases descriptor with
    | object shape =>
      simp only [found]
      refine (keeps_objectMembers shape).mono fun names tells none => ?_
      rintro ⟨member, -, inside⟩
      exact tells none ⟨member.2, inside⟩
    | array element =>
      simp only [found]
      refine (keeps_arrayMembers element).mono fun names tells none => ?_
      rintro ⟨member, -, inside⟩
      exact tells none ⟨member.2, inside⟩
    | tuple elements =>
      simp only [found]
      refine (keeps_tupleMembers elements).mono fun names tells none => ?_
      rintro ⟨member, -, inside⟩
      exact tells none ⟨member.2, inside⟩
    | reference target arguments =>
      simp only [found]
      refine Keeps.lift_bind fun definition known => ?_
      refine Keeps.lift_bind fun inside entered => ?_
      refine Keeps.lift_bind fun body present => ?_
      refine (keeps_firstNonempty (ih inside) _).mono fun names tells none => ?_
      rintro ⟨member, definition', inside', body', part, known', entered', present', first, selects⟩
      rw [Arena.target_eq_ok] at known
      rw [Definition.requireBody_eq_ok] at present
      obtain rfl : definition = definition' := Option.some.inj (known.symm.trans known')
      obtain rfl : inside = inside' := Except.ok.inj (entered.symm.trans entered')
      obtain rfl : body = body' := Option.some.inj (present.symm.trans present')
      exact tells none ⟨part, first.mem, member, selects⟩
    | parameter id =>
      simp only [found]
      refine Keeps.lift_bind fun stands resolved => ?_
      refine (ih stands.2 stands.1).mono fun names tells none => ?_
      rintro ⟨member, target, visible, resolved', selects⟩
      rw [resolved] at resolved'
      cases resolved'
      exact tells none ⟨member, selects⟩
    | union members =>
      simp only [found]
      refine (Keeps.mapM fun part _ => ih ctx part).bind fun lists tell => .pure fun none => ?_
      rintro ⟨member, part, inside, selects⟩
      obtain ⟨names, listed, tells⟩ := exists_right_of_forall₂ tell inside
      have empty : lists.flatten = [] := eq_nil_of_eraseDups none
      exact tells (List.flatten_eq_nil_iff.1 empty names listed) ⟨member, selects⟩
    | intersection members =>
      simp only [found]
      refine (keeps_firstNonempty (ih ctx) _).mono fun names tells none => ?_
      rintro ⟨member, part, first, selects⟩
      exact tells none ⟨part, first.mem, member, selects⟩
    | _ =>
      simp only [found]
      exact .pure fun _ => by simp [Descriptor.membersAt]

end

/-! ## Steps that never use up a depth -/

section
variable {α β : Type} {m : Except CompileError α}

theorem Conclusive.bind {f : α → Except CompileError β} (first : Conclusive m)
    (second : ∀ a, m = .ok a → Conclusive (f a)) : Conclusive (m >>= f) := by
  cases m with
  | error e => exact first.error
  | ok a => exact second a rfl

theorem Arena.conclusive_target (arena : Arena) (type : TypeId) (target : DefinitionId) :
    Conclusive (arena.target type target) := by
  intro other h
  unfold Arena.target at h
  split at h <;> cases h

theorem Definition.conclusive_requireBody (definition : Definition) :
    Conclusive definition.requireBody := by
  intro other h
  unfold requireBody at h
  split at h <;> cases h

theorem Instantiation.conclusive_bindBases (arena : Arena) (steps : Nat) (bindings : Instantiation)
    (definition : Definition) : Conclusive (bindBases arena steps bindings definition) := by
  induction steps generalizing bindings definition with
  | zero => nofun
  | succ steps ih =>
    unfold bindBases
    generalize definition.bases = bases
    induction bases generalizing bindings with
    | nil => exact conclusive_ok bindings
    | cons base rest below =>
      rw [List.foldlM_cons]
      refine Conclusive.bind ?_ fun bindings _ => below bindings
      split
      · split
        · exact ih _ _
        · exact conclusive_ok _
      · exact conclusive_ok _

theorem Context.conclusive_enter (ctx : Context) (definition : Definition) (arguments : List TypeId) :
    Conclusive (ctx.enter definition arguments) := by
  have entered : Conclusive (ctx.substitution.enter ctx.arena definition arguments) := by
    refine Conclusive.bind (Instantiation.conclusive_bindBases _ _ _ _) fun bindings _ => ?_
    split
    · exact conclusive_ok _
    · split
      · nofun
      · exact conclusive_ok _
  exact entered.bind fun _ _ => conclusive_ok _

theorem Context.conclusive_resolve (ctx : Context) (id : ParameterId) :
    Conclusive (ctx.resolve id) :=
  (Substitution.conclusive_resolveWithin _ _ _ _).bind fun _ _ => conclusive_ok _

/-- A step that does not depend on the depth, and what follows on its result. -/
theorem Settles.lift_bind {known : Set String} {f : Nat → α → Build β} (first : Conclusive m)
    (second : ∀ a, m = .ok a → Settles known fun depth => f depth a) :
    Settles known fun depth => (liftM m : Build α) >>= f depth := by
  cases m with
  | error e => exact .throw first.error
  | ok a => exact second a rfl

end

/-! ## Selected members settle -/

section
variable {known : Set String} {key : IndexKey} {ctx : Context}
  {compile : Nat → Context → TypeId → Build String}

theorem settles_firstNonempty {P : TypeId → Prop} {find : Nat → TypeId → Build (List String)}
    (tells : ∀ depth type, Keeps (fun _ => True) (find depth type) (TellsEmpty (P type)))
    {types : List TypeId}
    (parts : ∀ type, (P type → IsFirst P types type) → Settles known fun depth => find depth type) :
    Settles known fun depth => firstNonempty (find depth) types := by
  induction types with
  | nil => exact .pure _
  | cons type rest ih =>
    unfold firstNonempty
    refine (parts type fun own => ⟨[], rest, rfl, own, nofun⟩).bind_of_gives fun found given => ?_
    obtain ⟨depth, r, r', made⟩ := given
    have here : TellsEmpty (P type) found := (tells depth type r found r' made trivial).2
    by_cases empty : found = []
    · simp only [empty, List.isEmpty_nil, if_true]
      refine ih fun part first => parts part fun own => ?_
      obtain ⟨before, after, split, own, earlier⟩ := first own
      refine ⟨type :: before, after, by simp [split], own, ?_⟩
      simpa using ⟨here empty, earlier⟩
    · have nonempty : found.isEmpty = false := by simpa using empty
      simp only [nonempty]
      exact .pure found

theorem settles_compilePart {type : TypeId} {optional : Bool}
    (h : Settles known fun depth => compile depth ctx type) :
    Settles known fun depth => compilePart (compile depth) ctx type optional := by
  refine h.bind fun name => ?_
  cases optional with
  | true => exact .optional name
  | false => exact .pure name

theorem settles_objectMembers {shape : ObjectShape}
    (h : ∀ type ∈ (Descriptor.object shape).membersAt key,
      Settles known fun depth => compile depth ctx type) :
    Settles known fun depth => objectMembers (compile depth) ctx shape key := by
  simp only [objectMembers_eq]
  cases declared : shape.declared? key with
  | some property =>
    dsimp only
    split
    · exact .pure _
    · rename_i method
      cases typed : property.type with
      | none => exact .throw (by rintro _ ⟨⟩)
      | some type =>
        have own := h type (by simp [Descriptor.membersAt, declared, method, typed])
        exact (settles_compilePart own).bind fun _ => .pure _
  | none =>
    cases index : shape.index with
    | some type =>
      exact (h type (by simp [Descriptor.membersAt, declared, index])).bind fun _ => .pure _
    | none => exact .pure _

theorem settles_arrayMembers {element : TypeId}
    (h : ∀ type ∈ (Descriptor.array element).membersAt key,
      Settles known fun depth => compile depth ctx type) :
    Settles known fun depth => arrayMembers (compile depth) ctx element key := by
  unfold arrayMembers
  split
  · exact (h element (by simp [Descriptor.membersAt])).bind fun _ => .pure _
  · exact (h element (by simp [Descriptor.membersAt])).bind fun _ => .pure _
  · exact (h _ (by simp [Descriptor.membersAt])).bind fun _ => .pure _
  · exact .pure _

theorem settles_tupleMembers {elements : List TupleElement}
    (h : ∀ type ∈ (Descriptor.tuple elements).membersAt key,
      Settles known fun depth => compile depth ctx type) :
    Settles known fun depth => tupleMembers (compile depth) ctx elements key := by
  unfold tupleMembers
  split
  · split
    · rename_i element there
      have own := h element.type (by simp [Descriptor.membersAt, there])
      exact (settles_compilePart own).bind fun _ => .pure _
    · exact .pure _
  · refine (Settles.mapM fun element inside => ?_).bind fun _ => .pure _
    exact h element.type (by simpa [Descriptor.membersAt] using ⟨element, inside, rfl⟩)
  · exact (h _ (by simp [Descriptor.membersAt])).bind fun _ => .pure _
  · exact .pure _

/-- The members of a type settle if all that are selected do. -/
theorem settles_membersWithin {steps : Nat} {ctx : Context} {type : TypeId}
    (h : ∀ member, ctx.Selects key steps type member →
      Settles known fun depth => compile depth member.1 member.2) :
    Settles known fun depth => membersWithin (compile depth) key steps ctx type := by
  induction steps generalizing ctx type with
  | zero => exact .throw nofun
  | succ steps ih =>
    unfold membersWithin
    refine .lift_bind (ctx.arena.conclusive_lookup type) fun descriptor found => ?_
    rw [Arena.lookup_eq_ok] at found
    cases descriptor with
    | object shape =>
      refine settles_objectMembers fun member inside => h (ctx, member) ?_
      simpa only [Context.Selects, found] using ⟨trivial, inside⟩
    | array element =>
      refine settles_arrayMembers fun member inside => h (ctx, member) ?_
      simpa only [Context.Selects, found] using ⟨trivial, inside⟩
    | tuple elements =>
      refine settles_tupleMembers fun member inside => h (ctx, member) ?_
      simpa only [Context.Selects, found] using ⟨trivial, inside⟩
    | reference target arguments =>
      refine .lift_bind (ctx.arena.conclusive_target type target) fun definition known => ?_
      refine .lift_bind (ctx.conclusive_enter definition arguments) fun inside entered => ?_
      refine .lift_bind definition.conclusive_requireBody fun body present => ?_
      refine settles_firstNonempty (fun depth part => keeps_membersWithin steps inside part)
        fun part first => ih fun member selects => h member ?_
      simp only [Context.Selects, found]
      exact ⟨definition, inside, body, part, Arena.target_eq_ok.1 known, entered,
        Definition.requireBody_eq_ok.1 present, first ⟨member, selects⟩, selects⟩
    | parameter id =>
      refine .lift_bind (ctx.conclusive_resolve id) fun stands resolved => ?_
      refine ih fun member selects => h member ?_
      simp only [Context.Selects, found]
      exact ⟨stands.1, stands.2, resolved, selects⟩
    | union members =>
      refine (Settles.mapM fun part inside => ih fun member selects => h member ?_).bind fun _ => .pure _
      simp only [Context.Selects, found]
      exact ⟨part, inside, selects⟩
    | intersection members =>
      refine settles_firstNonempty (fun depth part => keeps_membersWithin steps ctx part)
        fun part first => ih fun member selects => h member ?_
      simp only [Context.Selects, found]
      exact ⟨part, first ⟨member, selects⟩, selects⟩
    | _ => exact .pure _

end

end ShapeCheck
