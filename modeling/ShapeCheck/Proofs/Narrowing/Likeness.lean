import Mathlib.Data.List.Forall2
import ShapeCheck.Proofs.Narrowing.Sameness

set_option autoImplicit false

/-! # Checking that types are alike

Types are alike if they are paired in a relation that is kept as types are unfolded. Where finitely many
pairs are enough, a list of them can be checked: both sides of a pair are looked up, and their parts have to
be the same or paired again. Accesses and types of keys are left out.

Main fact: `Arena.alike_of_areLike`.
-/

namespace ShapeCheck

/-! ## Descriptors -/

section
variable (R : TypeId → TypeId → Bool)

/-- Both are there and related, or none is. -/
def likensOption : Option TypeId → Option TypeId → Bool
  | some type, some type' => R type type'
  | none, none => true
  | _, _ => false

theorem rel_of_likensOption {type type' : Option TypeId} (h : likensOption R type type' = true) :
    Option.Rel (fun type type' => R type type' = true) type type' := by
  cases type <;> cases type' <;> first | exact .none | exact .some h | cases h

/-- The members differ in their types at most, which are related. -/
def Property.likens (property property' : Property) : Bool :=
  { property with type := none } = { property' with type := none } &&
    likensOption R property.type property'.type

theorem Property.pairs_of_likens {property property' : Property} (h : property.likens R property' = true) :
    property.Pairs (fun type type' => R type type' = true) property' := by
  obtain ⟨same, typed⟩ := Bool.and_eq_true_iff.1 h
  have same := of_decide_eq_true same
  injection same with name _ optional method symbolKeyed
  exact ⟨name, rel_of_likensOption R typed, optional, method, symbolKeyed⟩

/-- The descriptors say the same of related parts, and references are related by `refers`. -/
def Descriptor.likens (refers : DefinitionId → List TypeId → DefinitionId → List TypeId → Bool) :
    Descriptor → Descriptor → Bool
  | .array element, .array element' => R element element'
  | .tuple elements, .tuple elements' => decide <| List.Forall₂ (fun element element' =>
      R element.type element'.type = true ∧ element.optional = element'.optional) elements elements'
  | .object shape, .object shape' =>
    decide (List.Forall₂ (fun property property' => property.likens R property' = true) shape.properties
      shape'.properties) && likensOption R shape.index shape'.index
  | .union members, .union members' | .intersection members, .intersection members' =>
    decide (List.Forall₂ (fun member member' => R member member' = true) members members')
  | .reference target arguments, .reference target' arguments' => refers target arguments target' arguments'
  | .keyword word, .keyword word' => word = word'
  | .stringLiteral text, .stringLiteral text' => text = text'
  | _, _ => false

theorem Descriptor.pairs_of_likens {refers : DefinitionId → List TypeId → DefinitionId → List TypeId → Bool}
    {descriptor descriptor' : Descriptor} (h : descriptor.likens R refers descriptor' = true) :
    descriptor.Pairs (fun type type' => R type type' = true)
      (fun target arguments target' arguments' => refers target arguments target' arguments' = true)
      (fun _ _ => False) descriptor' := by
  unfold likens at h
  split at h
  · exact .array h
  · exact .tuple ((of_decide_eq_true h).imp fun _ _ both => ⟨both.1, both.2⟩)
  · obtain ⟨properties, index⟩ := Bool.and_eq_true_iff.1 h
    exact .object ⟨(of_decide_eq_true properties).imp fun _ _ => Property.pairs_of_likens R,
      rel_of_likensOption R index⟩
  · exact .union (of_decide_eq_true h)
  · exact .intersection (of_decide_eq_true h)
  · exact .reference h
  · obtain rfl := of_decide_eq_true h
    exact .plain trivial
  · obtain rfl := of_decide_eq_true h
    exact .plain trivial
  · cases h

end

/-! ## References -/

namespace Arena

/-- What is inside of a definition, in a list. -/
def insides (arena : Arena) (definition : Definition) : List TypeId :=
  definition.body.toList ++ definition.bases ++
    ((arena.mergedShape definition).toOption.elim [] fun shape => (Descriptor.object shape).children)

theorem mem_insides {arena : Arena} {definition : Definition} {part : TypeId}
    (h : arena.IsInside definition part) : part ∈ arena.insides definition := by
  rcases h with given | inherited | ⟨shape, merged, listed⟩
  · exact List.mem_append_left _ (List.mem_append_left _ (Option.mem_toList.2 given))
  · exact List.mem_append_left _ (List.mem_append_right _ inherited)
  · refine List.mem_append_right _ ?_
    rw [merged]
    exact listed

section
variable (arena : Arena) (R : Reading → Reading → Bool) (s s' : Substitution)

/-- The arguments are there and related. -/
def likensArgument : Except CompileError TypeId → Except CompileError TypeId → Bool
  | .ok part, .ok part' => R (s, part) (s', part')
  | _, _ => false

/-- The references lead to the same definition, with related arguments and related contents. -/
def likensReference (target : DefinitionId) (arguments : List TypeId) (target' : DefinitionId)
    (arguments' : List TypeId) : Bool :=
  target = target' && (arena.definition? target).all fun definition =>
    decide (List.Forall₂ (fun argument argument' => likensArgument R s s' argument argument' = true)
      (arena.allArguments definition.parameters arguments)
      (arena.allArguments definition.parameters arguments')) &&
    match Instantiation.ofArguments arena definition arguments,
        Instantiation.ofArguments arena definition arguments' with
    | .ok bindings, .ok bindings' =>
      (arena.insides definition).all fun part => R (s.within bindings, part) (s'.within bindings', part)
    | _, _ => false

theorem sameReference_of_likens {target target' : DefinitionId} {arguments arguments' : List TypeId}
    (h : arena.likensReference R s s' target arguments target' arguments' = true) :
    arena.SameReference (fun a b => R a b = true) s s' target arguments target' arguments' := by
  obtain ⟨same, rest⟩ := Bool.and_eq_true_iff.1 h
  refine ⟨of_decide_eq_true same, fun definition leads => ?_, fun definition leads => ?_⟩ <;>
    (rw [leads] at rest; obtain ⟨given, contents⟩ := Bool.and_eq_true_iff.1 rest)
  · refine (of_decide_eq_true given).imp fun argument argument' related => ?_
    cases argument <;> cases argument' <;> first | exact related | cases related
  · split at contents
    · rename_i bindings bindings' bound bound'
      rw [bound, bound']
      exact fun part inside => List.all_eq_true.1 contents part (mem_insides inside)
    · cases contents

end

/-! ## Pairs -/

section
variable (arena : Arena) (pairs : List (Reading × Reading))

/-- What a type stands for. -/
def settle? (a : Reading) : Option Reading :=
  match arena.lookup? a.2 with
  | some (.parameter id) => (a.1.resolve arena id).toOption.map fun found => (found.2, found.1)
  | _ => some a

theorem standsFor_of_settle? {a b : Reading} (h : arena.settle? a = some b) : arena.StandsFor a b := by
  unfold settle? at h
  split at h
  · rename_i id found
    obtain ⟨⟨target, visible⟩, resolved, rfl⟩ := Option.map_eq_some_iff.1 h
    exact standsFor_of_resolveWithin found (toOption_eq_some.1 resolved)
  · rename_i plain
    obtain rfl := Option.some.inj h
    exact .itself plain

/-- The two are the same or paired. -/
def isPaired (a b : Reading) : Bool := a = b ∨ (a, b) ∈ pairs ∨ (b, a) ∈ pairs

/-- The two stand for types that say the same of parts that are the same or paired. -/
def likens (a b : Reading) : Bool :=
  match arena.settle? a, arena.settle? b with
  | some (s, type), some (s', type') =>
    match arena.lookup? type, arena.lookup? type' with
    | some descriptor, some descriptor' =>
      descriptor.likens (fun part part' => isPaired pairs (s, part) (s', part'))
        (arena.likensReference (isPaired pairs) s s') descriptor'
    | _, _ => false
  | _, _ => false

/-- The two of every pair say the same, both ways. -/
def areLike : Bool :=
  pairs.all fun pair => arena.likens pairs pair.1 pair.2 && arena.likens pairs pair.2 pair.1

variable {arena pairs}

theorem exists_standsFor_of_likens {a b a' : Reading} (h : arena.likens pairs a b = true)
    (stands : arena.StandsFor a a') : ∃ b', arena.StandsFor b b' ∧
      Option.Rel (arena.SameForm (fun a b => isPaired pairs a b = true) a'.1 b'.1) (arena.lookup? a'.2)
        (arena.lookup? b'.2) := by
  unfold likens at h
  split at h
  · rename_i s type s' type' settled settled'
    obtain rfl := stands.unique (arena.standsFor_of_settle? settled)
    refine ⟨(s', type'), arena.standsFor_of_settle? settled', ?_⟩
    split at h
    · rename_i descriptor descriptor' found found'
      rw [found, found']
      refine .some ((Descriptor.pairs_of_likens _ h).mono (fun _ _ => id) ?_ fun _ _ => id)
      exact fun _ _ _ _ => arena.sameReference_of_likens _ s s'
    · cases h
  · cases h

/-- If all pairs of a list say the same up to the pairs of the list, they are alike. -/
theorem alike_of_areLike (like : arena.areLike pairs = true) :
    ∀ pair ∈ pairs, arena.Alike pair.1 pair.2 := by
  simp only [areLike, List.all_eq_true, Bool.and_eq_true] at like
  intro pair inside
  refine ⟨fun a b => isPaired pairs a b = true, ⟨fun {a b} h => ?_, fun {a b a'} h stands => ?_⟩, ?_⟩
  · simp only [isPaired, decide_eq_true_eq] at h ⊢
    exact h.imp Eq.symm Or.symm
  · rcases of_decide_eq_true h with rfl | there | back
    · refine ⟨a', stands, ?_⟩
      cases found : arena.lookup? a'.2 with
      | none => exact .none
      | some descriptor =>
        refine .some (SameForm.self (fun _ => ?_) fun id parameter => ?_)
        · simp [isPaired]
        · exact stands.plain id (found.trans (congrArg some parameter))
    · exact exists_standsFor_of_likens (like _ there).1 stands
    · exact exists_standsFor_of_likens (like _ back).2 stands
  · exact decide_eq_true (.inr (.inl inside))

theorem alike_of_isPaired (alike : ∀ pair ∈ pairs, arena.Alike pair.1 pair.2) {a b : Reading}
    (h : isPaired pairs a b = true) : arena.Alike a b := by
  rcases of_decide_eq_true h with rfl | there | back
  · exact .refl arena a
  · exact alike _ there
  · exact (alike _ back).symm

end

end Arena

end ShapeCheck
