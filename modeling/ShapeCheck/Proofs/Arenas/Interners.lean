import ShapeCheck.Descriptor.Interner
import ShapeCheck.Proofs.Arenas.Combinations

set_option autoImplicit false

/-! # Faithful interners

However many operations are performed, an interner stores each descriptor once, its index leads to the
handle of each descriptor and to nothing else, and the parts of a descriptor have smaller handles than it
has. So a handle stands for one type for good, and types can be walked down to their leaves.

`Interner.Reaches` is about runs: what an operation takes was returned earlier, or is built in.

Main facts: `Interner.perform_eq` (the index changes nothing about what an operation does to the arena) and
`Interner.Reaches.isFaithful`.
-/

namespace ShapeCheck

namespace Arena

variable {a : Arena}

theorem StoresOnce.find?_eq_some_iff (once : a.StoresOnce) {type : TypeId} {descriptor : Descriptor} :
    a.find? descriptor = some type ↔ a.lookup? type = some descriptor := by
  constructor
  · intro found
    have there := lookup?_intern a descriptor
    simpa only [Arena.intern, found] using there
  · intro there
    have entered := congrArg Prod.fst (once.intern_eq there)
    have same := congrArg (fun made => made.2.descriptors.size) (once.intern_eq there)
    cases found : a.find? descriptor with
    | some other =>
      simp only [Arena.intern, found] at entered
      rw [entered]
    | none => simp [Arena.intern, found] at same

/-! ## Operations on an arena -/

theorem extends_perform (a : Arena) (operation : Operation) : a.Extends (a.perform operation).2 := by
  cases operation with
  | intern descriptor => exact extends_intern a descriptor
  | combine kind members => exact extends_combine a kind members
  | addParameter name => exact extends_addParameter a name
  | setDefault id type => exact extends_setDefault a id type
  | declare name parameters => exact extends_declare a name parameters
  | define id body => exact extends_define a id body
  | addBase id base => exact extends_addBase a id base
  | declareAlias name body =>
    exact ((extends_declare a name []).trans (extends_define _ _ body)).trans (extends_intern _ _)

/-- What is made of members that are there is there afterwards. -/
theorem index_lt_combine (ordered : a.IsOrdered) (builtin : TypeId.builtinCount ≤ a.descriptors.size)
    {kind : Combination} {members : List TypeId}
    (known : ∀ member ∈ members, member.index < a.descriptors.size) :
    (a.combine kind members).1.index < (a.combine kind members).2.descriptors.size := by
  obtain ⟨leaves, flat⟩ := exists_flattensTo (c := kind) ordered known
  have inside (leaf : TypeId) (h : leaf ∈ leaves.eraseDups) : leaf.index < a.descriptors.size :=
    flat.known ordered known leaf (List.mem_eraseDups.1 h)
  have combined := combines_combine ordered known flat
  generalize leaves.eraseDups = different at combined inside
  generalize a.combine kind members = made at combined ⊢
  rcases made with ⟨type, b⟩
  cases combined with
  | none => exact Nat.lt_of_lt_of_le (of_decide_eq_true kind.isBuiltin_neutral) builtin
  | one => exact inside type (List.mem_singleton_self type)
  | several _ _ found => exact index_lt_of_lookup? found

/-- What an operation returns is there afterwards. -/
theorem index_lt_perform (ordered : a.IsOrdered) (builtin : TypeId.builtinCount ≤ a.descriptors.size)
    {operation : Operation} (known : ∀ type ∈ operation.arguments, type.index < a.descriptors.size) :
    ∀ type ∈ (a.perform operation).1, type.index < (a.perform operation).2.descriptors.size := by
  cases operation with
  | intern descriptor =>
    rintro type (_ | ⟨_, ⟨⟩⟩)
    exact index_lt_of_lookup? (lookup?_intern a descriptor)
  | combine kind members =>
    rintro type (_ | ⟨_, ⟨⟩⟩)
    exact index_lt_combine ordered builtin known
  | addParameter name =>
    rintro type (_ | ⟨_, ⟨⟩⟩)
    exact (writtenIn_addParameter a name).1
  | declareAlias name body =>
    rintro type (_ | ⟨_, ⟨⟩⟩)
    exact index_lt_of_lookup? (lookup?_intern _ _)
  | _ => exact nofun

end Arena

/-! ## The index -/

namespace Interner

variable {i j : Interner} {operation : Operation}

/-- Every descriptor is stored once, at the handle that the index has for it, and its parts have smaller
handles. -/
structure IsFaithful (i : Interner) : Prop where
  once : i.arena.StoresOnce
  index : ∀ descriptor type, i.index[descriptor]? = some type ↔ i.arena.lookup? type = some descriptor
  ordered : i.arena.IsOrdered

namespace IsFaithful

/-- The index finds what a search finds. -/
theorem index_eq (h : i.IsFaithful) (descriptor : Descriptor) :
    i.index[descriptor]? = i.arena.find? descriptor :=
  Option.ext fun type => (h.index descriptor type).trans h.once.find?_eq_some_iff.symm

theorem of_descriptors_eq (h : i.IsFaithful) (index : j.index = i.index)
    (same : j.arena.descriptors = i.arena.descriptors) : j.IsFaithful where
  once := by
    unfold Arena.StoresOnce
    rw [same]
    exact h.once
  index descriptor type := by
    rw [index, Arena.lookup?, same]
    exact h.index descriptor type
  ordered := by
    unfold Arena.IsOrdered
    simp only [same]
    exact h.ordered

theorem intern_eq (h : i.IsFaithful) (descriptor : Descriptor) :
    (i.intern descriptor).1 = (i.arena.intern descriptor).1 ∧
      (i.intern descriptor).2.arena = (i.arena.intern descriptor).2 := by
  unfold Interner.intern Arena.intern
  rw [h.index_eq]
  cases i.arena.find? descriptor <;> exact ⟨rfl, rfl⟩

theorem intern (h : i.IsFaithful) {descriptor : Descriptor}
    (parts : ∀ child ∈ descriptor.children, child.index < i.arena.descriptors.size) :
    (i.intern descriptor).2.IsFaithful where
  once := by
    rw [(h.intern_eq descriptor).2]
    exact h.once.intern descriptor
  ordered := by
    rw [(h.intern_eq descriptor).2]
    exact h.ordered.intern parts
  index other type := by
    unfold Interner.intern
    split
    · exact h.index other type
    · rename_i absent
      simp only [Std.HashMap.getElem?_insert, Arena.lookup?, Array.getElem?_push]
      by_cases same : descriptor = other
      · subst same
        simp only [BEq.rfl, if_true, Option.some.injEq]
        constructor
        · rintro rfl
          simp
        · intro found
          split at found
          · cases type
            simp_all
          · -- it would have been found
            have known := (h.index descriptor type).2 found
            cases absent.symm.trans known
      · simp only [beq_iff_eq, same, if_false]
        constructor
        · intro known
          have found := (h.index other type).1 known
          rw [if_neg (Nat.ne_of_lt (Arena.index_lt_of_lookup? found))]
          exact found
        · intro found
          split at found
          · exact absurd (Option.some.inj found) same
          · exact (h.index other type).2 found

theorem internAll (h : i.IsFaithful) {descriptors : List Descriptor}
    (noParts : ∀ descriptor ∈ descriptors, descriptor.children = []) :
    (i.internAll descriptors).IsFaithful ∧ (i.internAll descriptors).arena =
      descriptors.foldl (fun arena descriptor => (arena.intern descriptor).2) i.arena := by
  induction descriptors generalizing i with
  | nil => exact ⟨h, rfl⟩
  | cons descriptor rest ih =>
    have parts : ∀ child ∈ descriptor.children, child.index < i.arena.descriptors.size := by
      rw [noParts descriptor List.mem_cons_self]
      exact nofun
    rw [List.foldl_cons, ← (h.intern_eq descriptor).2]
    exact ih (h.intern parts) fun other later => noParts other (List.mem_cons_of_mem _ later)

theorem combine_eq (h : i.IsFaithful) (kind : Combination) (members : List TypeId) :
    (i.combine kind members).1 = (i.arena.combine kind members).1 ∧
      (i.combine kind members).2.arena = (i.arena.combine kind members).2 := by
  rw [Arena.combine_eq, Interner.combine]
  match i.arena.flatten kind.members? members with
  | [] => exact ⟨rfl, rfl⟩
  | [_] => exact ⟨rfl, rfl⟩
  | _ :: _ :: _ => exact h.intern_eq _

theorem combine (h : i.IsFaithful) {kind : Combination} {members : List TypeId}
    (known : ∀ member ∈ members, member.index < i.arena.descriptors.size) :
    (i.combine kind members).2.IsFaithful := by
  obtain ⟨leaves, flat⟩ := Arena.exists_flattensTo (c := kind) h.ordered known
  rw [Interner.combine, flat.flatten_eq h.ordered known]
  split
  · exact h
  · exact h
  · refine h.intern fun child inside => ?_
    rw [Combination.children_descriptor] at inside
    exact flat.known h.ordered known child (List.mem_eraseDups.1 inside)

end IsFaithful

/-! ## Operations -/

/-- An operation returns what it returns for the arena alone, and changes the arena in the same way. -/
theorem perform_eq (h : i.IsFaithful) (operation : Operation) :
    (i.perform operation).1 = (i.arena.perform operation).1 ∧
      (i.perform operation).2.arena = (i.arena.perform operation).2 := by
  have entered (j : Interner) (faithful : j.IsFaithful) (descriptor : Descriptor) :
      [(j.intern descriptor).1] = [(j.arena.intern descriptor).1] ∧
        (j.intern descriptor).2.arena = (j.arena.intern descriptor).2 :=
    (faithful.intern_eq descriptor).imp (congrArg ([·])) id
  cases operation with
  | intern descriptor => exact entered i h descriptor
  | combine kind members => exact (h.combine_eq kind members).imp (congrArg ([·])) id
  | addParameter name => exact entered (i.withParameter name) (h.of_descriptors_eq rfl rfl) _
  | declareAlias name body => exact entered (i.withAlias name body) (h.of_descriptors_eq rfl rfl) _
  | _ => exact ⟨rfl, rfl⟩

/-- Interners stay faithful if what an operation takes is there. -/
theorem IsFaithful.perform (h : i.IsFaithful)
    (known : ∀ type ∈ operation.arguments, type.index < i.arena.descriptors.size) :
    (i.perform operation).2.IsFaithful := by
  cases operation with
  | intern descriptor => exact h.intern known
  | combine kind members => exact h.combine known
  | addParameter name =>
    have faithful : (i.withParameter name).IsFaithful := h.of_descriptors_eq rfl rfl
    exact faithful.intern nofun
  | declareAlias name body =>
    have faithful : (i.withAlias name body).IsFaithful := h.of_descriptors_eq rfl rfl
    exact faithful.intern nofun
  | _ => exact h.of_descriptors_eq rfl rfl

/-! ## Runs -/

/-- Operations that are performed one after another lead to the interner, and have returned the types. What
an operation takes was returned earlier, or is built in. -/
inductive Reaches : Interner → List TypeId → Prop
  | initial : Reaches initial []
  | step {i : Interner} {returned : List TypeId} (before : Reaches i returned) (operation : Operation)
      (taken : ∀ type ∈ operation.arguments, type ∈ returned ∨ type.isBuiltin = true) :
      Reaches (i.perform operation).2 (returned ++ (i.perform operation).1)

theorem isFaithful_empty : empty.IsFaithful where
  once := List.nodup_nil
  index descriptor type := by simp [empty, Arena.lookup?]
  ordered := by simp [empty, Arena.IsOrdered]

theorem isFaithful_initial : initial.IsFaithful ∧ initial.arena = Arena.initial := by
  have noParts : ∀ descriptor ∈ Arena.initial.descriptors.toList, descriptor.children = [] := by decide
  obtain ⟨faithful, same⟩ := isFaithful_empty.internAll noParts
  refine ⟨faithful, same.trans ?_⟩
  decide +kernel

/-- What a run keeps: the interner is faithful, starts with the built-in types, and has what was returned. -/
structure IsRunning (i : Interner) (returned : List TypeId) : Prop where
  faithful : i.IsFaithful
  builtin : Arena.initial.Extends i.arena
  returned : ∀ type ∈ returned, type.index < i.arena.descriptors.size

namespace IsRunning

variable {returned : List TypeId}

theorem builtinCount_le (h : i.IsRunning returned) :
    TypeId.builtinCount ≤ i.arena.descriptors.size := by
  have last : (⟨13⟩ : TypeId).index < Arena.initial.descriptors.size := by decide
  exact h.builtin.index_lt last

theorem known (h : i.IsRunning returned)
    (taken : ∀ type ∈ operation.arguments, type ∈ returned ∨ type.isBuiltin = true) :
    ∀ type ∈ operation.arguments, type.index < i.arena.descriptors.size := by
  intro type inside
  rcases taken type inside with earlier | builtin
  · exact h.returned type earlier
  · exact Nat.lt_of_lt_of_le (of_decide_eq_true builtin) h.builtinCount_le

theorem step (h : i.IsRunning returned)
    (taken : ∀ type ∈ operation.arguments, type ∈ returned ∨ type.isBuiltin = true) :
    (i.perform operation).2.IsRunning (returned ++ (i.perform operation).1) := by
  have known := h.known taken
  obtain ⟨types, arena⟩ := perform_eq h.faithful operation
  have grown := i.arena.extends_perform operation
  refine ⟨h.faithful.perform known, ?_, fun type inside => ?_⟩
  · rw [arena]
    exact h.builtin.trans grown
  · rw [arena]
    rcases List.mem_append.1 inside with earlier | now
    · exact grown.index_lt (h.returned type earlier)
    · rw [types] at now
      exact Arena.index_lt_perform h.faithful.ordered h.builtinCount_le known type now

end IsRunning

theorem Reaches.isRunning {returned : List TypeId} (h : Reaches i returned) : i.IsRunning returned := by
  induction h with
  | initial =>
    obtain ⟨faithful, same⟩ := isFaithful_initial
    exact ⟨faithful, same ▸ .refl _, nofun⟩
  | step _ operation taken ih => exact ih.step taken

/-- A descriptor that is stored has its handle returned; another one gets a handle that was not in use. -/
theorem IsFaithful.intern_cases (h : i.IsFaithful) (descriptor : Descriptor) :
    (∃ type, i.arena.lookup? type = some descriptor ∧ i.intern descriptor = (type, i)) ∨
      (∀ type, i.arena.lookup? type ≠ some descriptor) ∧
        i.arena.lookup? (i.intern descriptor).1 = none ∧
        (i.intern descriptor).2.arena.lookup? (i.intern descriptor).1 = some descriptor := by
  have there := Arena.lookup?_intern i.arena descriptor
  rw [← (h.intern_eq descriptor).1, ← (h.intern_eq descriptor).2] at there
  cases found : i.index[descriptor]? with
  | some type =>
    exact .inl ⟨type, (h.index descriptor type).1 found, by rw [Interner.intern, found]⟩
  | none =>
    refine .inr ⟨fun type known => ?_, ?_, there⟩
    · cases found.symm.trans ((h.index descriptor type).2 known)
    · simp [Interner.intern, found, Arena.lookup?]

/-- An interner that operations lead to is a faithful and acyclic store, whatever the operations are.

Each descriptor is stored once, and the index has its handle and no other entries. What was returned is
there. The built-in types keep their handles. Interning gives the handle of an equal descriptor or one that
was not in use, and no operation changes what a handle leads to. The arena is what the same operations make
of it without an index. -/
theorem Reaches.isFaithful {returned : List TypeId} (h : Reaches i returned) :
    i.arena.descriptors.toList.Nodup ∧
    (∀ descriptor type,
      i.index[descriptor]? = some type ↔ i.arena.lookup? type = some descriptor) ∧
    (∀ type descriptor, i.arena.lookup? type = some descriptor →
      ∀ child ∈ descriptor.children, child.index < type.index) ∧
    (∀ type ∈ returned, ∃ descriptor, i.arena.lookup? type = some descriptor) ∧
    (∀ type, type.isBuiltin = true → i.arena.lookup? type = Arena.initial.lookup? type) ∧
    (∀ descriptor,
      (∃ type, i.arena.lookup? type = some descriptor ∧ i.intern descriptor = (type, i)) ∨
        (∀ type, i.arena.lookup? type ≠ some descriptor) ∧
          i.arena.lookup? (i.intern descriptor).1 = none ∧
          (i.intern descriptor).2.arena.lookup? (i.intern descriptor).1 = some descriptor) ∧
    ∀ operation : Operation,
      (∀ type descriptor, i.arena.lookup? type = some descriptor →
        (i.perform operation).2.arena.lookup? type = some descriptor) ∧
      (i.perform operation).1 = (i.arena.perform operation).1 ∧
      (i.perform operation).2.arena = (i.arena.perform operation).2 := by
  have running := h.isRunning
  have faithful := running.faithful
  refine ⟨faithful.once, faithful.index, Arena.isOrdered_iff.1 faithful.ordered, ?_, ?_,
    faithful.intern_cases, fun operation => ⟨?_, perform_eq faithful operation⟩⟩
  · exact fun type inside => Arena.exists_lookup?_of_lt (running.returned type inside)
  · intro type builtin
    have small : type.index < Arena.initial.descriptors.size := of_decide_eq_true builtin
    obtain ⟨descriptor, found⟩ := Arena.exists_lookup?_of_lt small
    rw [found, running.builtin.descriptors type descriptor found]
  · rw [(perform_eq faithful operation).2]
    exact (i.arena.extends_perform operation).descriptors

/-- Enters the literal type `"a"`, and then `"a" | number`. -/
def labelOrNumber : Operation × Operation :=
  (.intern (.stringLiteral "a"), .combine .union [⟨14⟩, .ofKeyword .number])

theorem isFaithful_labelOrNumber :
    ∃ i, Reaches i [⟨14⟩, ⟨15⟩] ∧
      i.arena.lookup? ⟨15⟩ = some (.union [⟨14⟩, .ofKeyword .number]) ∧
      i.index[Descriptor.union [⟨14⟩, .ofKeyword .number]]? = some ⟨15⟩ ∧
      i.arena.lookup? ⟨5⟩ = some (.keyword .number) := by
  obtain ⟨faithful, start⟩ := isFaithful_initial
  obtain ⟨label, arena⟩ := perform_eq faithful labelOrNumber.1
  rw [start] at label arena
  have first := Reaches.initial.step labelOrNumber.1 nofun
  rw [label, show (Arena.initial.perform labelOrNumber.1).1 = [⟨14⟩] by decide +kernel] at first
  obtain ⟨either, arena'⟩ := perform_eq first.isRunning.faithful labelOrNumber.2
  rw [arena] at either arena'
  have second := first.step labelOrNumber.2 (by decide)
  rw [either, show ((Arena.initial.perform labelOrNumber.1).2.perform labelOrNumber.2).1 = [⟨15⟩] by
    decide +kernel] at second
  obtain ⟨-, index, -, -, builtin, -⟩ := second.isFaithful
  have there : ((initial.perform labelOrNumber.1).2.perform labelOrNumber.2).2.arena.lookup? ⟨15⟩ =
      some (.union [⟨14⟩, .ofKeyword .number]) := by
    rw [arena']
    decide +kernel
  exact ⟨_, second, there, (index _ _).2 there, (builtin ⟨5⟩ (by decide)).trans (by decide)⟩

end Interner

end ShapeCheck
