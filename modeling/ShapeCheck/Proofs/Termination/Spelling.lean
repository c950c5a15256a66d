import Mathlib.Data.Finite.Prod
import Mathlib.Data.Set.Finite.List
import Mathlib.Order.Interval.Finset.Nat
import Mathlib.Order.WellFounded
import Mathlib.Logic.Relation
import ShapeCheck.Proofs.Naming.Depth
import ShapeCheck.Proofs.Termination.Settling

set_option autoImplicit false

/-! # Names that can be spelled

A name is spelled from the names of the parts of a type, and a parameter has the name of what it stands
for. Substitutions are built from the references of an arena and have a bounded length, so there are
finitely many of them, and spelling can only go on forever by coming back to a name that is being
spelled already.

Main facts: `acc_of_acyclic` (a finite relation without cycles has no endless chains),
`finite_isOver` (there are finitely many substitutions) and `settled_typeName`.
-/

namespace ShapeCheck

/-! ## Relations without cycles -/

/-- Where finitely many things can be reached and nothing leads back to itself, every chain ends. -/
theorem acc_of_acyclic {α : Type} {R : α → α → Prop} {S : Set α} (finite : S.Finite)
    (stays : ∀ a ∈ S, ∀ b, R a b → b ∈ S ∨ ∀ c, ¬ R b c)
    (acyclic : ∀ a ∈ S, ¬ Relation.TransGen R a a) : ∀ a ∈ S, Acc (fun b a => R a b) a := by
  let below (b a : S) : Prop := Relation.TransGen R a.1 b.1
  have trans : IsTrans S below := ⟨fun a b c h h' => h'.trans h⟩
  have irrefl : Std.Irrefl below := ⟨fun a h => acyclic a.1 a.2 h⟩
  have : Finite S := finite
  have wellFounded : WellFounded below := Finite.wellFounded_of_trans_of_irrefl below
  intro a inside
  induction h : (⟨a, inside⟩ : S) using wellFounded.induction generalizing a with
  | h x ih =>
    subst h
    refine ⟨a, fun b step => ?_⟩
    rcases stays a inside b step with known | ends
    · exact ih ⟨b, known⟩ (.single step) b known rfl
    · exact ⟨b, fun c step' => absurd step' (ends c)⟩

/-! ## Substitutions over an arena -/

/-- What a reference binds, if it can be entered. -/
def Arena.bindings? (arena : Arena) : Descriptor → Option Instantiation
  | .reference target arguments =>
    (arena.definition? target).bind fun definition =>
      (Instantiation.ofArguments arena definition arguments).toOption
  | _ => none

/-- The instantiations are those of references in the arena, and they are not too many. -/
def Substitution.IsOver (arena : Arena) (s : Substitution) : Prop :=
  s.length ≤ maxInstantiationDepth ∧
    ∀ bindings ∈ s, ∃ descriptor ∈ arena.descriptors, arena.bindings? descriptor = some bindings

namespace Substitution

variable {arena : Arena} {s visible inside : Substitution}

theorem isOver_nil (arena : Arena) : IsOver arena [] := ⟨Nat.zero_le _, nofun⟩

theorem finite_isOver (arena : Arena) : {s | IsOver arena s}.Finite := by
  let all := {bindings | ∃ descriptor ∈ arena.descriptors, arena.bindings? descriptor = some bindings}
  have listed : all ⊆ {bindings | bindings ∈ arena.descriptors.toList.filterMap arena.bindings?} := by
    rintro bindings ⟨descriptor, inside, made⟩
    exact List.mem_filterMap.2 ⟨descriptor, inside.val, made⟩
  have finite : all.Finite := (List.finite_toSet _).subset listed
  have : Finite all := finite
  refine ((List.finite_length_le all maxInstantiationDepth).image (List.map Subtype.val)).subset ?_
  rintro s ⟨small, known⟩
  exact ⟨s.attach.map fun bindings => ⟨bindings.1, known bindings.1 bindings.2⟩, by simpa using small,
    by simp⟩

theorem IsOver.of_suffix (h : s.IsOver arena) (suffix : visible <:+ s) : visible.IsOver arena :=
  ⟨Nat.le_trans suffix.length_le h.1, fun bindings inside => h.2 bindings (suffix.subset inside)⟩

theorem suffix_of_find? {id : ParameterId} {type : TypeId}
    (h : s.find? id = some (type, visible)) : visible <:+ s := by
  induction s with
  | nil => cases h
  | cons inner outer ih =>
    unfold find? at h
    split at h
    · cases h
      exact List.suffix_cons inner visible
    · cases h
      exact List.suffix_refl _
    · exact (ih h).trans (List.suffix_cons inner outer)

theorem suffix_of_resolveWithin {steps : Nat} {id : ParameterId} {type : TypeId}
    (h : s.resolveWithin arena steps id = .ok (type, visible)) : visible <:+ s := by
  induction steps generalizing s id with
  | zero => cases h
  | succ steps ih =>
    obtain ⟨⟨target, between⟩, stepped, h⟩ := bind_eq_ok.1 h
    have here : between <:+ s := by
      unfold step at stepped
      split at stepped
      · rename_i found
        cases stepped
        exact suffix_of_find? found
      · split at stepped
        · cases stepped
          exact List.suffix_refl _
        · cases stepped
    simp only at h
    split at h
    · split at h
      · cases h
      · exact (ih h).trans here
    · cases h
      exact here

/-- What a parameter stands for is read with a part of the substitution. -/
theorem IsOver.resolve (h : s.IsOver arena) {id : ParameterId} {type : TypeId}
    (stands : s.resolve arena id = .ok (type, visible)) : visible.IsOver arena :=
  h.of_suffix (suffix_of_resolveWithin stands)

theorem IsOver.enter (h : s.IsOver arena) {type : TypeId} {target : DefinitionId}
    {arguments : List TypeId} {definition : Definition}
    (found : arena.lookup? type = some (.reference target arguments))
    (known : arena.definition? target = some definition)
    (entered : s.enter arena definition arguments = .ok inside) : inside.IsOver arena := by
  refine ⟨enter_length_le entered h.1, ?_⟩
  obtain ⟨bindings, made, entered⟩ := bind_eq_ok.1 entered
  have own : ∃ descriptor ∈ arena.descriptors, arena.bindings? descriptor = some bindings :=
    ⟨_, Array.mem_of_getElem? found, by simp [Arena.bindings?, known, made, Except.toOption]⟩
  split at entered
  · cases entered
    exact h.2
  · split at entered
    · cases entered
    · cases entered
      rintro other (_ | ⟨_, inside⟩)
      · exact own
      · exact h.2 other inside

end Substitution

/-- The handles that belong to descriptors. -/
def Arena.handles (arena : Arena) : Set TypeId := {type | ∃ descriptor, arena.lookup? type = some descriptor}

theorem Arena.finite_handles (arena : Arena) : arena.handles.Finite := by
  refine ((Set.finite_Iio arena.descriptors.size).image TypeId.mk).subset ?_
  rintro type ⟨descriptor, found⟩
  exact ⟨type.index, (Array.getElem?_eq_some_iff.1 found).1, rfl⟩

/-! ## The parts of a name -/

/-- The types whose names a name is spelled from. -/
def Descriptor.namedParts (arena : Arena) : Descriptor → List TypeId
  | .array element => [element]
  | .tuple elements => elements.map TupleElement.type
  | .object shape =>
    (shape.properties.filter fun property => !property.symbolKeyed && !property.method).filterMap
      Property.type ++ shape.index.toList
  | .union members => members
  | .intersection members => members
  | .reference target arguments =>
    match arena.definition? target with
    | some definition =>
      (arena.allArguments definition.parameters arguments).filterMap Except.toOption
    | none => []
  | .indexAccess whole key => [whole, key]
  | .keyof operand => [operand]
  | _ => []

/-- The name of a type, read with a substitution, is spelled from the name of another one. -/
inductive Arena.NamedThrough (arena : Arena) : Substitution × TypeId → Substitution × TypeId → Prop
  | part {s : Substitution} {type part : TypeId} {descriptor : Descriptor}
      (found : arena.lookup? type = some descriptor) (inside : part ∈ descriptor.namedParts arena) :
      NamedThrough arena (s, type) (s, part)
  | parameter {s visible : Substitution} {type target : TypeId} {id : ParameterId}
      (found : arena.lookup? type = some (.parameter id))
      (stands : s.resolve arena id = .ok (target, visible)) :
      NamedThrough arena (s, type) (visible, target)

/-- No name is spelled from itself, whatever the parameters stand for. -/
def Arena.NamesEnd (arena : Arena) : Prop :=
  ∀ s type, s.IsOver arena → ¬ Relation.TransGen arena.NamedThrough (s, type) (s, type)

/-! ## Spelling a name -/

section
variable {arena : Arena} {s : Substitution}
  {name : Nat → Substitution → Bool → TypeId → Except CompileError String}

theorem Arena.conclusive_lookup (arena : Arena) (type : TypeId) : Conclusive (arena.lookup type) := by
  intro other h
  unfold Arena.lookup at h
  split at h <;> cases h

theorem Substitution.conclusive_resolveWithin (arena : Arena) (steps : Nat) (s : Substitution)
    (id : ParameterId) : Conclusive (s.resolveWithin arena steps id) := by
  induction steps generalizing s id with
  | zero => nofun
  | succ steps ih =>
    have stepped : Conclusive (s.step arena id) := by
      intro type h
      unfold step at h
      split at h
      · cases h
      · split at h <;> cases h
    intro type h
    unfold resolveWithin at h
    cases made : s.step arena id with
    | error e =>
      rw [made] at h stepped
      exact stepped.error type h
    | ok found =>
      rw [made] at h
      simp only [bind, Except.bind] at h
      split at h
      · split at h
        · cases h
        · exact ih _ _ type h
      · cases h

theorem Arena.conclusive_of_mem_allArguments {parameters : List ParameterId} {arguments : List TypeId}
    {argument : Except CompileError TypeId} (inside : argument ∈ arena.allArguments parameters arguments) :
    Conclusive argument := by
  induction parameters generalizing arguments with
  | nil => cases inside
  | cons parameter rest ih =>
    cases arguments with
    | cons first arguments =>
      rcases List.mem_cons.1 inside with rfl | inside
      · exact conclusive_ok first
      · exact ih inside
    | nil =>
      rcases List.mem_cons.1 inside with rfl | inside
      · split
        · exact conclusive_ok _
        · nofun
      · exact ih inside

theorem Property.settled_nameWith {exact : Bool} {property : Property}
    (parts : property.method = false → ∀ part ∈ property.type.toList,
      Settled fun depth => name depth s exact part) :
    Settled fun depth => property.nameWith (name depth) s exact := by
  by_cases method : property.method = true
  · simp only [Property.nameWith, method, if_true]
    exact .ok _
  · simp only [Property.nameWith, method]
    cases type : property.type with
    | none => exact .ok _
    | some part => exact (parts (by simpa using method) part (by simp [type])).bind fun _ => .ok _

theorem Descriptor.settled_nameWith {descriptor : Descriptor} {exact : Bool}
    (parts : ∀ part ∈ descriptor.namedParts arena, ∀ exact,
      Settled fun depth => name depth s exact part)
    (parameter : ∀ id, descriptor = .parameter id → ∀ target visible,
      s.resolve arena id = .ok (target, visible) → Settled fun depth => name depth visible exact target) :
    Settled fun depth => descriptor.nameWith arena (name depth) s exact := by
  cases descriptor with
  | array element => exact (parts element (by simp [namedParts]) exact).bind fun _ => .ok _
  | tuple elements =>
    refine (Settled.mapM fun element inside => ?_).bind fun _ => .ok _
    exact (parts element.type (List.mem_map_of_mem inside) exact).bind fun _ => .ok _
  | object shape =>
    have members : ∀ property ∈ shape.properties.filter (!·.symbolKeyed),
        Settled fun depth => property.nameWith (name depth) s exact := by
      intro property inside
      refine Property.settled_nameWith fun method part typed => parts part ?_ exact
      simp only [List.mem_filter, Bool.not_eq_true'] at inside
      simp only [namedParts, List.mem_append, List.mem_filterMap, List.mem_filter]
      exact .inl ⟨property, ⟨inside.1, by simp [inside.2, method]⟩, by simpa using typed⟩
    have index : ∀ type ∈ shape.index.toList,
        Settled fun depth => do return "[key: string]: " ++ (← name depth s exact type) := by
      intro type inside
      exact (parts type (by simp [namedParts, inside]) exact).bind fun _ => .ok _
    exact ((Settled.mapM members).bind fun _ => (Settled.mapM index).bind fun _ => .ok _).bind
      fun _ => .ok _
  | union members => exact (Settled.mapM fun member inside => parts member inside exact).bind fun _ => .ok _
  | intersection members =>
    exact ((Settled.mapM fun member inside => parts member inside false).bind fun _ => .ok _).bind
      fun _ => .ok _
  | reference target arguments =>
    refine Settled.bind ?_ fun _ => .ok _
    unfold referenceNameWith
    simp only [namedParts] at parts
    cases known : arena.definition? target with
    | none => exact .ok _
    | some definition =>
      by_cases plain : definition.parameters.isEmpty = true
      · simp only [plain, if_true]
        exact .ok _
      · simp only [plain]
        rw [known] at parts
        refine (Settled.mapM fun argument inside => ?_).bind fun _ => .ok _
        cases argument with
        | error e =>
          have conclusive := Arena.conclusive_of_mem_allArguments inside
          exact .const conclusive.error
        | ok type =>
          exact parts type (List.mem_filterMap.2 ⟨_, inside, rfl⟩) exact
  | parameter id =>
    cases stands : s.resolve arena id with
    | error e =>
      have conclusive := Substitution.conclusive_resolveWithin arena maxResolutionSteps s id
      rw [← Substitution.resolve, stands] at conclusive
      simp only [nameWith, stands]
      exact .const conclusive.error
    | ok found =>
      simp only [nameWith, stands]
      exact parameter id rfl found.1 found.2 stands
  | indexAccess whole key =>
    exact (parts whole (by simp [namedParts]) false).bind fun _ =>
      (parts key (by simp [namedParts]) false).bind fun _ => .ok _
  | keyof operand => exact (parts operand (by simp [namedParts]) false).bind fun _ => .ok _
  | _ => exact .ok _

end

section
variable {arena : Arena} {s : Substitution} {type : TypeId}

theorem settled_of_acc {goal : Substitution × TypeId}
    (ends : Acc (fun b a => arena.NamedThrough a b) goal) (exact : Bool) :
    Settled fun depth => typeNameWithin arena depth goal.1 exact goal.2 := by
  induction ends generalizing exact with
  | intro goal _ ih =>
    refine .of_succ ?_
    unfold typeNameWithin Arena.lookup
    cases found : arena.lookup? goal.2 with
    | none => exact .const (by rintro _ ⟨⟩)
    | some descriptor =>
      refine Descriptor.settled_nameWith (fun part inside exact => ?_) fun id is target visible stands => ?_
      · exact ih (goal.1, part) (.part found inside) exact
      · subst is
        exact ih (visible, target) (.parameter found stands) exact

/-- Where no name is spelled from itself, every type has a name, or there is a verdict that it has
none. -/
theorem settled_typeName (names : arena.NamesEnd) (based : s.IsOver arena) (exact : Bool)
    (type : TypeId) : Settled fun depth => typeNameWithin arena depth s exact type := by
  let goals : Set (Substitution × TypeId) := {s | s.IsOver arena} ×ˢ arena.handles
  have ends : ∀ goal ∈ goals, Acc (fun b a => arena.NamedThrough a b) goal := by
    have finite : goals.Finite := (Substitution.finite_isOver arena).prod arena.finite_handles
    refine acc_of_acyclic finite (fun goal inside next step => ?_) fun goal inside => ?_
    · have based : next.1.IsOver arena := by
        cases step with
        | part => exact inside.1
        | parameter _ stands => exact Substitution.IsOver.resolve inside.1 stands
      by_cases known : next.2 ∈ arena.handles
      · exact .inl ⟨based, known⟩
      · right
        rintro last (⟨found, -⟩ | ⟨found, -⟩)
        · exact known ⟨_, found⟩
        · exact known ⟨_, found⟩
    · exact names goal.1 goal.2 inside.1
  by_cases known : type ∈ arena.handles
  · exact settled_of_acc (ends (s, type) ⟨based, known⟩) exact
  · refine .of_succ ?_
    unfold typeNameWithin Arena.lookup
    cases found : arena.lookup? type with
    | some descriptor => exact absurd ⟨descriptor, found⟩ known
    | none => exact .const (by rintro _ ⟨⟩)

end

end ShapeCheck
