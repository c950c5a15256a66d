import ShapeCheck.Proofs.Documents.Arenas
import ShapeCheck.Proofs.Repetitions
import ShapeCheck.Proofs.Simulation.Descriptors

set_option autoImplicit false

/-! # Renamed types

The same type has different handles in two arenas, and so have the definitions and type parameters that it
mentions. A `Renaming` says which definitions and parameters correspond; types match if they are built in
the same way from definitions and parameters that correspond. An arena stores nothing twice, so a type
has one counterpart at most, and what is left out of a union as a repetition in one arena is left out in
the other.

Main facts: `Renaming.Matches.unique` and `Renaming.Matches.flatten`.
-/

namespace ShapeCheck

/-! ## Optional and listed items -/

section
variable {α β : Type} {R R' : α → β → Prop}

/-- What items are related to is settled if it is for each of them. -/
theorem forall₂_unique {as : List α} {bs cs : List β} (h : List.Forall₂ R as bs)
    (h' : List.Forall₂ R' as cs) (each : ∀ a ∈ as, ∀ b c, R a b → R' a c → b = c) : bs = cs := by
  induction h generalizing cs with
  | nil =>
    cases h'
    rfl
  | cons here _ ih =>
    cases h' with
    | cons here' rest =>
      rw [each _ List.mem_cons_self _ _ here here',
        ih rest fun a inside => each a (List.mem_cons_of_mem _ inside)]

theorem optionRel_unique {a? : Option α} {b? c? : Option β} (h : Option.Rel R a? b?)
    (h' : Option.Rel R' a? c?) (each : ∀ a ∈ a?, ∀ b c, R a b → R' a c → b = c) : b? = c? := by
  cases h with
  | none =>
    cases h'
    rfl
  | some related =>
    cases h' with
    | some related' => rw [each _ rfl _ _ related related']

end

/-! ## Descriptors -/

namespace Descriptor.Pairs

variable {R R' : TypeId → TypeId → Prop}
  {Refers Refers' : DefinitionId → List TypeId → DefinitionId → List TypeId → Prop}
  {Stands Stands' : ParameterId → ParameterId → Prop} {descriptor descriptor' : Descriptor}

theorem symm (h : descriptor.Pairs R Refers Stands descriptor')
    (refers : ∀ target arguments target' arguments', Refers target arguments target' arguments' →
      Refers' target' arguments' target arguments) :
    descriptor'.Pairs (flip R) Refers' (flip Stands) descriptor := by
  cases h with
  | plain isPlain => exact .plain isPlain
  | array related => exact .array related
  | tuple related => exact .tuple (List.Forall₂.flip (related.imp fun _ _ pair => pair.flip))
  | object related =>
    exact .object ⟨List.Forall₂.flip (related.properties.imp fun _ _ pair => pair.flip),
      optionRel_flip related.index⟩
  | union related => exact .union (List.Forall₂.flip related)
  | intersection related => exact .intersection (List.Forall₂.flip related)
  | reference related => exact .reference (refers _ _ _ _ related)
  | parameter related => exact .parameter related
  | indexAccess whole key => exact .indexAccess whole key
  | keyof related => exact .keyof related

end Descriptor.Pairs

/-! ## Renamings -/

/-- Which definitions and type parameters of two arenas correspond. -/
structure Renaming where
  definitions : DefinitionId → DefinitionId → Prop
  parameters : ParameterId → ParameterId → Prop

namespace Renaming

variable {ρ : Renaming} {R R' : TypeId → TypeId → Prop} {descriptor descriptor' descriptor'' : Descriptor}

/-- The renaming from the second arena to the first. -/
def symm (ρ : Renaming) : Renaming := ⟨flip ρ.definitions, flip ρ.parameters⟩

/-- Nothing corresponds to two different things. -/
structure IsOneToOne (ρ : Renaming) : Prop where
  definitions : Relator.BiUnique ρ.definitions
  parameters : Relator.BiUnique ρ.parameters

theorem IsOneToOne.symm (h : ρ.IsOneToOne) : ρ.symm.IsOneToOne where
  definitions := ⟨fun _ _ _ first second => h.definitions.2 first second,
    fun _ _ _ first second => h.definitions.1 first second⟩
  parameters := ⟨fun _ _ _ first second => h.parameters.2 first second,
    fun _ _ _ first second => h.parameters.1 first second⟩

/-- The descriptors say the same of parts that are related. -/
abbrev Pairs (ρ : Renaming) (R : TypeId → TypeId → Prop) : Descriptor → Descriptor → Prop :=
  Descriptor.Pairs R (fun target arguments target' arguments' =>
    ρ.definitions target target' ∧ List.Forall₂ R arguments arguments') ρ.parameters

theorem Pairs.mono (h : ρ.Pairs R descriptor descriptor') (parts : ∀ x y, R x y → R' x y) :
    ρ.Pairs R' descriptor descriptor' :=
  Descriptor.Pairs.mono h parts
    (fun _ _ _ _ related => ⟨related.1, related.2.imp parts⟩) fun _ _ related => related

theorem Pairs.symm (h : ρ.Pairs R descriptor descriptor') :
    ρ.symm.Pairs (flip R) descriptor' descriptor :=
  Descriptor.Pairs.symm h fun _ _ _ _ related => ⟨related.1, List.Forall₂.flip related.2⟩

/-- What a descriptor is paired with is settled by what its parts are paired with. -/
theorem Pairs.unique (oneToOne : ρ.IsOneToOne) (h : ρ.Pairs R descriptor descriptor')
    (h' : ρ.Pairs R descriptor descriptor'')
    (parts : ∀ child ∈ descriptor.children, ∀ x y, R child x → R child y → x = y) :
    descriptor' = descriptor'' := by
  cases h with
  | plain isPlain =>
    cases h' with
    | plain => rfl
    | _ => exact isPlain.elim
  | array related =>
    cases h' with
    | plain isPlain => exact isPlain.elim
    | array related' => rw [parts _ List.mem_cons_self _ _ related related']
  | tuple related =>
    cases h' with
    | plain isPlain => exact isPlain.elim
    | tuple related' =>
      refine congrArg Descriptor.tuple (forall₂_unique related related' fun element inside x y first second => ?_)
      have type := parts _ (List.mem_map_of_mem inside) _ _ first.type second.type
      have optional := first.optional.symm.trans second.optional
      cases x
      cases y
      simp_all
  | @object shape _ related =>
    cases h' with
    | plain isPlain => exact isPlain.elim
    | object related' =>
      have properties := forall₂_unique related.properties related'.properties
        fun property inside x y first second => by
          have type := optionRel_unique first.type second.type fun type typed => parts type
            (List.mem_append_left _ (List.mem_filterMap.2 ⟨property, inside, typed⟩))
          have name := first.name.symm.trans second.name
          have optional := first.optional.symm.trans second.optional
          have method := first.method.symm.trans second.method
          have symbolKeyed := first.symbolKeyed.symm.trans second.symbolKeyed
          cases x
          cases y
          simp_all
      have index := optionRel_unique related.index related'.index fun type indexed => parts type
        (List.mem_append_right _ (Option.mem_toList.2 indexed))
      rename_i left right
      cases left
      cases right
      simp_all
  | union related =>
    cases h' with
    | plain isPlain => exact isPlain.elim
    | union related' => rw [forall₂_unique related related' parts]
  | intersection related =>
    cases h' with
    | plain isPlain => exact isPlain.elim
    | intersection related' => rw [forall₂_unique related related' parts]
  | reference related =>
    cases h' with
    | plain isPlain => exact isPlain.elim
    | reference related' =>
      rw [oneToOne.definitions.2 related.1 related'.1, forall₂_unique related.2 related'.2 parts]
  | parameter related =>
    cases h' with
    | plain isPlain => exact isPlain.elim
    | parameter related' => rw [oneToOne.parameters.2 related related']
  | indexAccess whole key =>
    cases h' with
    | plain isPlain => exact isPlain.elim
    | indexAccess whole' key' =>
      rw [parts _ (by simp [Descriptor.children]) _ _ whole whole',
        parts _ (by simp [Descriptor.children]) _ _ key key']
  | keyof related =>
    cases h' with
    | plain isPlain => exact isPlain.elim
    | keyof related' => rw [parts _ List.mem_cons_self _ _ related related']

/-! ## Matching types -/

variable {a a' b b' : Arena} {type type' : TypeId}

/-- The types are built in the same way, up to the renaming. -/
def Matches (ρ : Renaming) (a a' : Arena) (type type' : TypeId) : Prop :=
  ∃ R : TypeId → TypeId → Prop, R type type' ∧ ∀ x x', R x x' →
    ∃ descriptor descriptor', a.lookup? x = some descriptor ∧ a'.lookup? x' = some descriptor' ∧
      ρ.Pairs R descriptor descriptor'

namespace Matches

/-- Matching types have descriptors that say the same of matching parts. -/
theorem lookup (h : ρ.Matches a a' type type') :
    ∃ descriptor descriptor', a.lookup? type = some descriptor ∧ a'.lookup? type' = some descriptor' ∧
      ρ.Pairs (ρ.Matches a a') descriptor descriptor' := by
  obtain ⟨R, related, closed⟩ := h
  obtain ⟨descriptor, descriptor', found, found', pair⟩ := closed type type' related
  exact ⟨descriptor, descriptor', found, found', pair.mono fun x x' here => ⟨R, here, closed⟩⟩

theorem of_lookup (found : a.lookup? type = some descriptor) (found' : a'.lookup? type' = some descriptor')
    (pair : ρ.Pairs (ρ.Matches a a') descriptor descriptor') : ρ.Matches a a' type type' := by
  refine ⟨fun x x' => x = type ∧ x' = type' ∨ ρ.Matches a a' x x', .inl ⟨rfl, rfl⟩, ?_⟩
  rintro x x' (⟨rfl, rfl⟩ | related)
  · exact ⟨descriptor, descriptor', found, found', pair.mono fun _ _ => .inr⟩
  · obtain ⟨inner, inner', there, there', pair⟩ := related.lookup
    exact ⟨inner, inner', there, there', pair.mono fun _ _ => .inr⟩

/-- Arenas that grow keep their matching types. -/
theorem mono (h : ρ.Matches a a' type type') (grown : a.Extends b) (grown' : a'.Extends b') :
    ρ.Matches b b' type type' := by
  obtain ⟨R, related, closed⟩ := h
  refine ⟨R, related, fun x x' here => ?_⟩
  obtain ⟨inner, inner', found, found', pair⟩ := closed x x' here
  exact ⟨inner, inner', grown.descriptors _ _ found, grown'.descriptors _ _ found', pair⟩

theorem symm (h : ρ.Matches a a' type type') : ρ.symm.Matches a' a type' type := by
  obtain ⟨R, related, closed⟩ := h
  refine ⟨flip R, related, fun x x' here => ?_⟩
  obtain ⟨inner, inner', found, found', pair⟩ := closed x' x here
  exact ⟨inner', inner, found', found, pair.symm⟩

end Matches

end Renaming

namespace Renaming.Matches

variable {ρ : Renaming} {a a' : Arena} {type type' type'' : TypeId}

/-- A type has one counterpart at most. -/
theorem unique (oneToOne : ρ.IsOneToOne) (ordered : a.IsOrdered) (once : a'.StoresOnce)
    (h : ρ.Matches a a' type type') (h' : ρ.Matches a a' type type'') : type' = type'' := by
  generalize bound : type.index = n
  induction n using Nat.strongRecOn generalizing type type' type'' with
  | ind n ih =>
    obtain ⟨descriptor, descriptor', found, found', pair⟩ := h.lookup
    obtain ⟨_, descriptor'', again, found'', pair'⟩ := h'.lookup
    obtain rfl := Option.some.inj (found.symm.trans again)
    -- children have smaller handles, so their counterparts are settled
    have same : descriptor' = descriptor'' := pair.unique oneToOne pair' fun child inside x y =>
      fun first second => ih child.index (bound ▸ ordered.child_lt found inside) first second rfl
    subst same
    exact once.eq_of_lookup? found' found''

theorem biUnique (oneToOne : ρ.IsOneToOne) (ordered : a.IsOrdered) (once : a.StoresOnce)
    (ordered' : a'.IsOrdered) (once' : a'.StoresOnce) : Relator.BiUnique (ρ.Matches a a') :=
  ⟨fun _ _ _ first second => unique oneToOne.symm ordered' once first.symm second.symm,
    fun _ _ _ first second => unique oneToOne ordered once' first second⟩

/-! ## Unions and intersections -/

section
variable {nested : Descriptor → Option (List TypeId)}
  (isPart : ∀ descriptor inner, nested descriptor = some inner → inner ⊆ descriptor.children)
  (alike : ∀ descriptor descriptor', ρ.Pairs (ρ.Matches a a') descriptor descriptor' →
    Option.Rel (List.Forall₂ (ρ.Matches a a')) (nested descriptor) (nested descriptor'))
include isPart alike

/-- Matching members have matching leaves, within as many rounds as their handles ask for. -/
theorem leaves (ordered : a.IsOrdered) (ordered' : a'.IsOrdered) (depth depth' : Nat)
    {members members' : List TypeId} (h : List.Forall₂ (ρ.Matches a a') members members')
    (enough : ∀ member ∈ members, member.index < depth)
    (enough' : ∀ member ∈ members', member.index < depth') :
    List.Forall₂ (ρ.Matches a a') (a.leaves nested depth members) (a'.leaves nested depth' members') := by
  induction depth generalizing depth' members members' with
  | zero =>
    cases h with
    | nil => cases depth' <;> exact .nil
    | cons => exact absurd (enough _ List.mem_cons_self) (Nat.not_lt_zero _)
  | succ depth ih =>
    cases depth' with
    | zero =>
      cases h with
      | nil => exact .nil
      | cons => exact absurd (enough' _ List.mem_cons_self) (Nat.not_lt_zero _)
    | succ depth' =>
      unfold Arena.leaves
      induction h with
      | nil => exact .nil
      | @cons member member' _ _ here _ others =>
        rw [List.flatMap_cons, List.flatMap_cons]
        refine List.rel_append ?_ (others (fun other later => enough other (List.mem_cons_of_mem _ later))
          fun other later => enough' other (List.mem_cons_of_mem _ later))
        obtain ⟨descriptor, descriptor', found, found', pair⟩ := here.lookup
        have parts := alike descriptor descriptor' pair
        simp only [found, found', Option.bind_some]
        cases inner : nested descriptor <;> cases inner' : nested descriptor' <;>
          rw [inner, inner'] at parts <;> cases parts
        · exact .cons here .nil
        · rename_i related
          apply ih depth' related
          · intro part inside
            have smaller := ordered.child_lt found (isPart descriptor _ inner inside)
            have bound := enough member List.mem_cons_self
            omega
          · intro part inside
            have smaller := ordered'.child_lt found' (isPart descriptor' _ inner' inside)
            have bound := enough' member' List.mem_cons_self
            omega

/-- Flattening matching members gives matching lists. -/
theorem flatten (oneToOne : ρ.IsOneToOne) (ordered : a.IsOrdered) (once : a.StoresOnce)
    (ordered' : a'.IsOrdered) (once' : a'.StoresOnce) {members members' : List TypeId}
    (h : List.Forall₂ (ρ.Matches a a') members members') :
    List.Forall₂ (ρ.Matches a a') (a.flatten nested members) (a'.flatten nested members') := by
  apply forall₂_eraseDups (biUnique oneToOne ordered once ordered' once')
  apply leaves isPart alike ordered ordered' _ _ h
  · intro member inside
    obtain ⟨other, -, related⟩ := exists_right_of_forall₂ h inside
    obtain ⟨_, _, found, -⟩ := related.lookup
    exact Arena.index_lt_of_lookup? found
  · intro member inside
    obtain ⟨other, -, related⟩ := exists_left_of_forall₂ h inside
    obtain ⟨_, _, -, found, -⟩ := related.lookup
    exact Arena.index_lt_of_lookup? found

end

theorem unionMembers? {R : TypeId → TypeId → Prop} {descriptor descriptor' : Descriptor}
    (pair : ρ.Pairs R descriptor descriptor') :
    Option.Rel (List.Forall₂ R) (Arena.unionMembers? descriptor) (Arena.unionMembers? descriptor') := by
  cases pair with
  | union related => exact .some related
  | plain isPlain => cases descriptor <;> first | exact .none | exact isPlain.elim
  | _ => exact .none

theorem intersectionMembers? {R : TypeId → TypeId → Prop} {descriptor descriptor' : Descriptor}
    (pair : ρ.Pairs R descriptor descriptor') :
    Option.Rel (List.Forall₂ R) (Arena.intersectionMembers? descriptor)
      (Arena.intersectionMembers? descriptor') := by
  cases pair with
  | intersection related => exact .some related
  | plain isPlain => cases descriptor <;> first | exact .none | exact isPlain.elim
  | _ => exact .none

end Renaming.Matches

end ShapeCheck
