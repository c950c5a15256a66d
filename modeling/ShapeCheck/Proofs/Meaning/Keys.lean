import ShapeCheck.Proofs.Meaning.Equations
import ShapeCheck.Proofs.Naming.Depth

set_option autoImplicit false

/-! # Collected keys

The keys that a compilation collects are those that the type declares, and it collects none exactly
where the type leaves its keys open. That the number of steps is limited does not matter: a
collection that runs out of steps fails.

Main fact: `collectKeysWithin_spec`.
-/

namespace ShapeCheck

/-! ## Monomorphic definitions -/

/-- A definition that is not generic and extends no other binds nothing. -/
theorem Context.enter_of_monomorphic (ctx : Context) {definition : Definition}
    (plain : definition.parameters = [] ∧ definition.bases = []) (arguments : List TypeId) :
    ctx.enter definition arguments = .ok ctx := by
  have nothing : Instantiation.ofArguments ctx.arena definition arguments = .ok [] := by
    unfold Instantiation.ofArguments
    rw [plain.1]
    show Instantiation.bindBases ctx.arena (63 + 1) [] definition = .ok []
    unfold Instantiation.bindBases
    rw [plain.2]
    rfl
  simp only [enter, Substitution.enter, nothing]
  rfl

theorem Arena.target_eq_ok {arena : Arena} {reference : TypeId} {id : DefinitionId}
    {definition : Definition} :
    arena.target reference id = .ok definition ↔ arena.definition? id = some definition := by
  unfold target
  cases arena.definition? id <;> simp

theorem Arena.lookup_eq_ok {arena : Arena} {type : TypeId} {descriptor : Descriptor} :
    arena.lookup type = .ok descriptor ↔ arena.lookup? type = some descriptor := by
  unfold lookup
  cases arena.lookup? type <;> simp

theorem Definition.requireBody_eq_ok {definition : Definition} {body : TypeId} :
    definition.requireBody = .ok body ↔ definition.body = some body := by
  unfold requireBody
  cases definition.body <;> simp

/-! ## Keys of types -/

theorem ObjectShape.mem_keys {shape : ObjectShape} {key : String} : key ∈ shape.keys ↔
    ∃ property ∈ shape.properties, property.symbolKeyed = false ∧ property.name = key := by
  simp [keys, Text.mem_sortUnique, and_assoc]

namespace Arena

variable {arena : Arena} {type : TypeId} {descriptor : Descriptor}

theorem openKeys_iff (found : arena.lookup? type = some descriptor) :
    arena.OpenKeys type ↔
      descriptor.isOpen = true ∨ ∃ source ∈ arena.keySources type, arena.OpenKeys source := by
  constructor
  · rintro (⟨found', form⟩ | ⟨inside, there⟩)
    · rw [found, Option.some.injEq] at found'
      exact .inl (found' ▸ form)
    · exact .inr ⟨_, inside, there⟩
  · rintro (form | ⟨source, inside, there⟩)
    · exact .form found form
    · exact .source inside there

theorem hasKey_iff {key : String} (found : arena.lookup? type = some descriptor) :
    arena.HasKey key type ↔
      (∃ shape, descriptor = .object shape ∧ key ∈ shape.keys) ∨
        ∃ source ∈ arena.keySources type, arena.HasKey key source := by
  constructor
  · rintro (⟨found', inside, texts, same⟩ | ⟨inside, there⟩)
    · rw [found, Option.some.injEq] at found'
      exact .inl ⟨_, found', ObjectShape.mem_keys.2 ⟨_, inside, texts, same⟩⟩
    · exact .inr ⟨_, inside, there⟩
  · rintro (⟨shape, rfl, listed⟩ | ⟨source, inside, there⟩)
    · obtain ⟨property, inside, texts, same⟩ := ObjectShape.mem_keys.1 listed
      exact .property found inside texts same
    · exact .source inside there

end Arena

/-! ## Gathered keys -/

theorem exists_open_of_gatherKeys {keysOf : TypeId → Except CompileError KeySet}
    {known : List String} {types : List TypeId} (h : gatherKeys keysOf known types = .ok none) :
    ∃ type ∈ types, keysOf type = .ok none := by
  induction types generalizing known with
  | nil => cases h
  | cons type rest ih =>
    unfold gatherKeys at h
    obtain ⟨part?, made, h⟩ := bind_eq_ok.1 h
    cases part? with
    | none => exact ⟨type, by simp, made⟩
    | some part =>
      obtain ⟨type', inside, made'⟩ := ih h
      exact ⟨type', by simp [inside], made'⟩

theorem closed_of_gatherKeys {keysOf : TypeId → Except CompileError KeySet}
    {known keys : List String} {types : List TypeId}
    (h : gatherKeys keysOf known types = .ok (some keys)) :
    ∀ type ∈ types, ∃ part, keysOf type = .ok (some part) := by
  induction types generalizing known with
  | nil => simp
  | cons type rest ih =>
    unfold gatherKeys at h
    obtain ⟨part?, made, h⟩ := bind_eq_ok.1 h
    cases part? with
    | none => cases h
    | some part => exact List.forall_mem_cons.2 ⟨⟨part, made⟩, ih h⟩

/-- A collection tells the keys of a type: those that it declares, or that they are open. -/
def KeySet.Tells (arena : Arena) (type : TypeId) : KeySet → Prop
  | none => arena.OpenKeys type
  | some keys => ¬ arena.OpenKeys type ∧ ∀ key, key ∈ keys ↔ arena.HasKey key type

section
variable {arena : Arena} {type : TypeId} {descriptor : Descriptor}

/-- Keys gathered from the sources of a type are those of the type. -/
theorem tells_gatherKeys (found : arena.lookup? type = some descriptor)
    (closed : descriptor.isOpen = false) (others : ∀ shape, descriptor ≠ .object shape)
    {keysOf : TypeId → Except CompileError KeySet} {keys? : KeySet}
    (tells : ∀ source ∈ arena.keySources type, ∀ part, keysOf source = .ok part →
      part.Tells arena source)
    (h : gatherKeys keysOf [] (arena.keySources type) = .ok keys?) : keys?.Tells arena type := by
  cases keys? with
  | none =>
    obtain ⟨source, inside, made⟩ := exists_open_of_gatherKeys h
    exact .source inside (tells source inside none made)
  | some keys =>
    refine ⟨?_, fun key => ?_⟩
    · rw [Arena.openKeys_iff found]
      rintro (form | ⟨source, inside, there⟩)
      · rw [closed] at form
        cases form
      · obtain ⟨part, made⟩ := closed_of_gatherKeys h source inside
        exact (tells source inside (some part) made).1 there
    · rw [mem_gatherKeys h, Arena.hasKey_iff found]
      constructor
      · rintro (none | ⟨source, inside, part, made, listed⟩)
        · cases none
        · exact .inr ⟨source, inside, ((tells source inside _ made).2 key).1 listed⟩
      · rintro (⟨shape, rfl, _⟩ | ⟨source, inside, there⟩)
        · exact absurd rfl (others shape)
        · obtain ⟨part, made⟩ := closed_of_gatherKeys h source inside
          exact .inr ⟨source, inside, part, made, ((tells source inside _ made).2 key).2 there⟩

/-- A type whose form leaves the keys open. -/
theorem tells_none (found : arena.lookup? type = some descriptor) (form : descriptor.isOpen = true) :
    KeySet.Tells arena type none := .form found form

/-- A type without keys. -/
theorem tells_nil (found : arena.lookup? type = some descriptor) (form : descriptor.isOpen = false)
    (others : ∀ shape, descriptor ≠ .object shape) (ends : arena.keySources type = []) :
    KeySet.Tells arena type (some []) := by
  have gathered : gatherKeys (fun _ => .ok (some [])) [] (arena.keySources type) =
      .ok (some []) := by
    rw [ends]
    rfl
  exact tells_gatherKeys found form others (by simp [ends]) gathered

end

/-! ## Collected keys -/

/-- The collected keys are those of the type. -/
theorem collectKeysWithin_spec {arena : Arena} (Reached : TypeId → Prop)
    (plain : ∀ type, Reached type → ∀ descriptor, arena.lookup? type = some descriptor →
      descriptor.IsMonomorphic arena)
    (onwards : ∀ type, Reached type → ∀ source ∈ arena.keySources type, Reached source)
    (depth steps : Nat) {ctx : Context} (here : ctx.arena = arena) {type : TypeId}
    (reached : Reached type) {keys? : KeySet}
    (h : collectKeysWithin depth steps ctx type = .ok keys?) : keys?.Tells arena type := by
  induction steps generalizing type keys? with
  | zero =>
    obtain ⟨_, _, thrown⟩ := bind_eq_ok.1 h
    cases thrown
  | succ steps ih =>
    unfold collectKeysWithin at h
    obtain ⟨descriptor, found, h⟩ := bind_eq_ok.1 h
    rw [here, Arena.lookup_eq_ok] at found
    have monomorphic := plain type reached descriptor found
    have sources (source : TypeId) (inside : source ∈ arena.keySources type) (part : KeySet)
        (made : collectKeysWithin depth steps ctx source = .ok part) : part.Tells arena source :=
      ih (onwards type reached source inside) made
    cases descriptor with
    | object shape =>
      have ends : arena.keySources type = [] := by simp [Arena.keySources, found]
      obtain rfl := Except.ok.inj h
      cases index : shape.index with
      | some part => exact tells_none found (by simp [Descriptor.isOpen, index])
      | none =>
        refine ⟨?_, fun key => ?_⟩
        · rw [Arena.openKeys_iff found, ends]
          simp [Descriptor.isOpen, index]
        · rw [Arena.hasKey_iff found, ends]
          simp
    | union members | intersection members =>
      have same : arena.keySources type = members := by simp [Arena.keySources, found]
      rw [← same] at h
      exact tells_gatherKeys found rfl (by simp) sources h
    | reference target arguments =>
      obtain ⟨definition, leads, h⟩ := bind_eq_ok.1 h
      rw [here, Arena.target_eq_ok] at leads
      have simple := monomorphic definition leads
      rw [ctx.enter_of_monomorphic simple] at h
      obtain ⟨_, entered, h⟩ := bind_eq_ok.1 h
      obtain rfl := Except.ok.inj entered
      obtain ⟨body, given, h⟩ := bind_eq_ok.1 h
      rw [Definition.requireBody_eq_ok] at given
      have same : arena.keySources type = body :: definition.bases := by
        simp [Arena.keySources, found, leads, given, simple.2]
      rw [← same] at h
      exact tells_gatherKeys found rfl (by simp) sources h
    | parameter id => exact monomorphic.elim
    | keyword word =>
      have ends : arena.keySources type = [] := by simp [Arena.keySources, found]
      cases word <;> obtain rfl := Except.ok.inj h <;>
        first
        | exact tells_none found rfl
        | exact tells_nil found rfl (by simp) ends
    | array | tuple | indexAccess =>
      obtain rfl := Except.ok.inj h
      exact tells_none found rfl
    | stringLiteral | numberLiteral | booleanLiteral | buffer | view | keyof =>
      obtain rfl := Except.ok.inj h
      exact tells_nil found rfl (by simp) (by simp [Arena.keySources, found])

end ShapeCheck
