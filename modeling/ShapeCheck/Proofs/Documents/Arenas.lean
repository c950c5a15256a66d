import Mathlib.Data.List.Nodup
import ShapeCheck.Proofs.Instantiation.Trees

set_option autoImplicit false

/-! # Sound arenas

While a document is lowered its arena only grows: a handle keeps its descriptor, and a definition its
parameters. `Arena.IsSound` says that nothing in an arena points to something that is not there, that
bodies and bases are written in the parameters of their definitions, and that bases are references.
A definition may still be without a body. With `full`, every reference has arguments for all parameters
of its definition as well.

Main facts: `Arena.IsSound.intern`, and one lemma of this kind for every other step that changes an
arena; `Arena.StoresOnce.intern` (nothing is stored twice).
-/

namespace ShapeCheck

namespace Arena

variable {a b c : Arena} {full : Prop}

/-! ## Growth -/

/-- The second arena has everything that is in the first one. -/
structure Extends (a b : Arena) : Prop where
  descriptors : ∀ type descriptor, a.lookup? type = some descriptor → b.lookup? type = some descriptor
  definitions : ∀ id definition, a.definition? id = some definition →
    ∃ later, b.definition? id = some later ∧ later.parameters = definition.parameters ∧
      (definition.body.isSome → later.body.isSome)

theorem Extends.refl (a : Arena) : a.Extends a :=
  ⟨fun _ _ found => found, fun _ definition found => ⟨definition, found, rfl, id⟩⟩

theorem Extends.trans (h : a.Extends b) (h' : b.Extends c) : a.Extends c where
  descriptors type descriptor found := h'.descriptors type descriptor (h.descriptors type descriptor found)
  definitions id definition found := by
    obtain ⟨later, found, parameters, body⟩ := h.definitions id definition found
    obtain ⟨latest, found, parameters', body'⟩ := h'.definitions id later found
    exact ⟨latest, found, parameters'.trans parameters, fun given => body' (body given)⟩

theorem Extends.index_lt (h : a.Extends b) {type : TypeId} (known : type.index < a.descriptors.size) :
    type.index < b.descriptors.size := by
  obtain ⟨descriptor, found⟩ := exists_lookup?_of_lt known
  exact index_lt_of_lookup? (h.descriptors type descriptor found)

/-- A type of the smaller arena is written out in the same way in the larger one. -/
theorem Extends.treeWithin_eq (h : a.Extends b) (ordered : a.IsOrdered) (steps : Nat) {type : TypeId}
    (known : type.index < a.descriptors.size) : b.treeWithin steps type = a.treeWithin steps type := by
  induction steps generalizing type with
  | zero => rfl
  | succ steps ih =>
    obtain ⟨descriptor, found⟩ := exists_lookup?_of_lt known
    have children : descriptor.children.map (b.treeWithin steps) =
        descriptor.children.map (a.treeWithin steps) :=
      List.map_congr_left fun child inside =>
        ih (Nat.lt_trans (ordered.child_lt found inside) known)
    unfold treeWithin
    rw [h.descriptors type descriptor found, found]
    cases descriptor with
    | parameter id => rfl
    | _ => simp only [children]

theorem Extends.writtenIn (h : a.Extends b) (ordered : a.IsOrdered) {parameters : List ParameterId}
    {type : TypeId} (written : a.WrittenIn parameters type) : b.WrittenIn parameters type := by
  refine ⟨h.index_lt written.1, fun id inside => written.2 id ?_⟩
  rwa [treeOf, h.treeWithin_eq ordered _ written.1] at inside

theorem isOrdered_iff : a.IsOrdered ↔ ∀ type descriptor, a.lookup? type = some descriptor →
    ∀ child ∈ descriptor.children, child.index < type.index := by
  constructor
  · exact fun ordered type descriptor found child inside => ordered.child_lt found inside
  · intro ordered i inside child listed
    exact ordered ⟨i⟩ _ (Array.getElem?_eq_getElem inside) child listed

/-- A type is written in what its parts are written in. -/
theorem WrittenIn.of_children (ordered : a.IsOrdered) {parameters : List ParameterId} {type : TypeId}
    {descriptor : Descriptor} (found : a.lookup? type = some descriptor)
    (structural : descriptor.IsStructural)
    (parts : ∀ child ∈ descriptor.children, a.WrittenIn parameters child) :
    a.WrittenIn parameters type := by
  refine ⟨index_lt_of_lookup? found, fun id inside => ?_⟩
  rw [treeOf_node ordered found structural, TypeTree.parameters,
    TypeTree.parametersOfAll_eq_flatMap] at inside
  obtain ⟨tree, listed, inside⟩ := List.mem_flatMap.1 inside
  obtain ⟨child, among, rfl⟩ := List.mem_map.1 listed
  exact (parts child among).2 id inside

theorem WrittenIn.mono {parameters parameters' : List ParameterId} {type : TypeId}
    (written : a.WrittenIn parameters type) (more : ∀ id ∈ parameters, id ∈ parameters') :
    a.WrittenIn parameters' type :=
  ⟨written.1, fun id inside => more id (written.2 id inside)⟩

/-! ## Soundness -/

/-- The definition is there, and with `full` there is an argument for each of its parameters. -/
def Applies (full : Prop) (arena : Arena) (target : DefinitionId) (arguments : List TypeId) : Prop :=
  ∃ definition, arena.definition? target = some definition ∧
    (full → definition.parameters.length ≤ arguments.length)

/-- The type refers to a definition. -/
def IsReference (arena : Arena) (type : TypeId) : Prop :=
  ∃ target arguments, arena.lookup? type = some (.reference target arguments)

/-- Nothing in the arena points to something that is not there. -/
structure IsSound (full : Prop) (arena : Arena) : Prop where
  builtin : ∀ type descriptor, initial.lookup? type = some descriptor →
    arena.lookup? type = some descriptor
  ordered : arena.IsOrdered
  references : ∀ type target arguments, arena.lookup? type = some (.reference target arguments) →
    arena.Applies full target arguments
  bodies : ∀ id definition, arena.definition? id = some definition → ∀ body ∈ definition.body,
    arena.WrittenIn definition.parameters body
  bases : ∀ id definition, arena.definition? id = some definition → ∀ base ∈ definition.bases,
    arena.WrittenIn definition.parameters base ∧ arena.IsReference base
  defaults : ∀ id type, arena.default? id = some type → type.index < arena.descriptors.size

theorem isSound_initial (full : Prop) : initial.IsSound full where
  builtin _ _ found := found
  ordered := by decide
  references type target arguments found := by
    have none : ∀ descriptor ∈ initial.descriptors, descriptor ≠ .reference target arguments := by
      simp [initial, Keyword.all]
    exact absurd rfl (none _ (Array.mem_of_getElem? found))
  bodies id definition found := by simp [definition?, initial] at found
  bases id definition found := by simp [definition?, initial] at found
  defaults id type found := by simp [default?, parameter?, initial] at found

/-- Whether references leave out arguments is not asked. -/
theorem IsSound.weaken (sound : a.IsSound full) : a.IsSound False where
  builtin := sound.builtin
  ordered := sound.ordered
  references type target arguments found := by
    obtain ⟨definition, known, -⟩ := sound.references type target arguments found
    exact ⟨definition, known, nofun⟩
  bodies := sound.bodies
  bases := sound.bases
  defaults := sound.defaults

/-- A built-in type is written without parameters. -/
theorem IsSound.writtenIn_builtin (sound : a.IsSound full) {type : TypeId}
    (builtin : type.isBuiltin = true) (parameters : List ParameterId) :
    a.WrittenIn parameters type := by
  have small : type.index < initial.descriptors.size := of_decide_eq_true builtin
  obtain ⟨descriptor, found⟩ := exists_lookup?_of_lt small
  have leaf : ∀ descriptor ∈ initial.descriptors,
      descriptor.IsStructural ∧ descriptor.children = [] := by
    simp [initial, Keyword.all, Descriptor.IsStructural, Descriptor.children]
  obtain ⟨structural, noChildren⟩ := leaf descriptor (Array.mem_of_getElem? found)
  exact .of_children sound.ordered (sound.builtin type descriptor found) structural
    (by simp [noChildren])

theorem Applies.extends {target : DefinitionId} {arguments : List TypeId}
    (applies : a.Applies full target arguments) (h : a.Extends b) : b.Applies full target arguments := by
  obtain ⟨definition, known, enough⟩ := applies
  obtain ⟨later, known, parameters, -⟩ := h.definitions target definition known
  exact ⟨later, known, fun given => parameters ▸ enough given⟩

theorem IsReference.extends {type : TypeId} (h : a.IsReference type) (grown : a.Extends b) :
    b.IsReference type := by
  obtain ⟨target, arguments, found⟩ := h
  exact ⟨target, arguments, grown.descriptors _ _ found⟩

/-! ## Interning -/

theorem definition?_intern (a : Arena) (descriptor : Descriptor) (id : DefinitionId) :
    (a.intern descriptor).2.definition? id = a.definition? id := by
  unfold intern
  split <;> rfl

theorem default?_intern (a : Arena) (descriptor : Descriptor) (id : ParameterId) :
    (a.intern descriptor).2.default? id = a.default? id := by
  unfold intern
  split <;> rfl

/-- What is in the arena after interning was there before, or is what was interned. -/
theorem lookup?_of_intern {descriptor found : Descriptor} {type : TypeId}
    (h : (a.intern descriptor).2.lookup? type = some found) :
    a.lookup? type = some found ∨ type = (a.intern descriptor).1 ∧ found = descriptor := by
  unfold intern at h ⊢
  split at h
  · exact .inl h
  · simp only [lookup?, Array.getElem?_push] at h
    split at h
    · rename_i last
      cases h
      exact .inr ⟨by cases type; simp_all, rfl⟩
    · exact .inl h

theorem extends_intern (a : Arena) (descriptor : Descriptor) :
    a.Extends (a.intern descriptor).2 where
  descriptors type found known := by
    unfold intern
    split
    · exact known
    · obtain ⟨inside, rfl⟩ := Array.getElem?_eq_some_iff.1 known
      simp [lookup?, Array.getElem?_push, Nat.ne_of_lt inside]
  definitions id definition known :=
    ⟨definition, by rw [definition?_intern, known], rfl, fun given => given⟩

/-- An arena stays ordered if the parts of what enters it are there. -/
theorem IsOrdered.intern (ordered : a.IsOrdered) {descriptor : Descriptor}
    (parts : ∀ child ∈ descriptor.children, child.index < a.descriptors.size) :
    (a.intern descriptor).2.IsOrdered := by
  refine isOrdered_iff.2 fun type found known child inside => ?_
  rcases lookup?_of_intern known with before | ⟨rfl, rfl⟩
  · exact ordered.child_lt before inside
  · -- an old handle keeps its place, a new one comes after everything that was there
    unfold Arena.intern
    split
    · rename_i type old
      have before : a.lookup? type = some found := by
        have here := lookup?_intern a found
        unfold Arena.intern at here
        simpa only [old] using here
      exact ordered.child_lt before inside
    · exact parts child inside

/-- A descriptor may enter a sound arena if its parts are there. -/
theorem IsSound.intern (sound : a.IsSound full) {descriptor : Descriptor}
    (parts : ∀ child ∈ descriptor.children, child.index < a.descriptors.size)
    (applies : ∀ target arguments, descriptor = .reference target arguments →
      a.Applies full target arguments) : (a.intern descriptor).2.IsSound full := by
  have grown := extends_intern a descriptor
  refine ⟨fun type found known => grown.descriptors _ _ (sound.builtin type found known),
    sound.ordered.intern parts, fun type target arguments known => ?_,
    fun id definition known body given => ?_, fun id definition known base inside => ?_,
    fun id type given => ?_⟩
  · rcases lookup?_of_intern known with before | ⟨-, same⟩
    · exact (sound.references type target arguments before).extends grown
    · exact (applies target arguments same.symm).extends grown
  · rw [definition?_intern] at known
    exact grown.writtenIn sound.ordered (sound.bodies id definition known body given)
  · rw [definition?_intern] at known
    obtain ⟨written, reference⟩ := sound.bases id definition known base inside
    exact ⟨grown.writtenIn sound.ordered written, reference.extends grown⟩
  · rw [default?_intern] at given
    exact grown.index_lt (sound.defaults id type given)

/-- A structural descriptor is written in what its parts are written in. -/
theorem IsSound.writtenIn_intern (sound : a.IsSound full) {descriptor : Descriptor}
    {parameters : List ParameterId} (structural : descriptor.IsStructural)
    (parts : ∀ child ∈ descriptor.children, a.WrittenIn parameters child)
    (applies : ∀ target arguments, descriptor = .reference target arguments →
      a.Applies full target arguments) :
    (a.intern descriptor).2.WrittenIn parameters (a.intern descriptor).1 := by
  have after := sound.intern (fun child inside => (parts child inside).1) applies
  exact .of_children after.ordered (lookup?_intern a descriptor) structural fun child inside =>
    (extends_intern a descriptor).writtenIn sound.ordered (parts child inside)

/-! ## Nothing is stored twice -/

/-- No descriptor is stored twice. -/
def StoresOnce (arena : Arena) : Prop := arena.descriptors.toList.Nodup

namespace StoresOnce

variable {type type' : TypeId} {descriptor : Descriptor}

theorem initial : Arena.initial.StoresOnce := by
  unfold Arena.StoresOnce
  decide

theorem eq_of_lookup? (once : a.StoresOnce) (found : a.lookup? type = some descriptor)
    (found' : a.lookup? type' = some descriptor) : type = type' := by
  obtain ⟨inside, here⟩ := Array.getElem?_eq_some_iff.1 found
  obtain ⟨inside', there⟩ := Array.getElem?_eq_some_iff.1 found'
  have same : type.index = type'.index := by
    apply (@List.Nodup.getElem_inj_iff _ _ once _ inside _ inside').1
    simpa using here.trans there.symm
  cases type
  cases type'
  exact congrArg TypeId.mk same

theorem intern (once : a.StoresOnce) (descriptor : Descriptor) : (a.intern descriptor).2.StoresOnce := by
  unfold Arena.intern
  split
  · exact once
  · rename_i absent
    simp only [find?, Option.map_eq_none_iff, Array.findIdx?_eq_none_iff] at absent
    unfold Arena.StoresOnce
    rw [Array.toList_push, List.nodup_append]
    refine ⟨once, by simp, fun known inside other here => ?_⟩
    obtain rfl := List.mem_singleton.1 here
    exact by simpa using absent known (Array.mem_toList_iff.1 inside)

end StoresOnce

/-! ## Unions and intersections -/

theorem writtenIn_leaves (ordered : a.IsOrdered) {nested : Descriptor → Option (List TypeId)}
    (isPart : ∀ descriptor inner, nested descriptor = some inner → inner ⊆ descriptor.children)
    {parameters : List ParameterId} (depth : Nat) {members : List TypeId}
    (written : ∀ member ∈ members, a.WrittenIn parameters member) :
    ∀ leaf ∈ a.leaves nested depth members, a.WrittenIn parameters leaf := by
  induction depth generalizing members with
  | zero => exact written
  | succ depth ih =>
    intro leaf inside
    obtain ⟨member, listed, inside⟩ := List.mem_flatMap.1 inside
    split at inside
    · rename_i inner isNested
      obtain ⟨descriptor, found, isNested⟩ := Option.bind_eq_some_iff.1 isNested
      refine ih (fun part among => ?_) leaf inside
      exact (written member listed).child ordered found (isPart descriptor inner isNested among)
    · obtain rfl := List.mem_singleton.1 inside
      exact written leaf listed

/-- What flattening gives is written in what the members are written in. -/
theorem writtenIn_flatten (ordered : a.IsOrdered) {nested : Descriptor → Option (List TypeId)}
    (isPart : ∀ descriptor inner, nested descriptor = some inner → inner ⊆ descriptor.children)
    {parameters : List ParameterId} {members : List TypeId}
    (written : ∀ member ∈ members, a.WrittenIn parameters member) :
    ∀ leaf ∈ a.flatten nested members, a.WrittenIn parameters leaf :=
  fun leaf inside => writtenIn_leaves ordered isPart _ written leaf (List.mem_eraseDups.1 inside)

theorem unionMembers?_subset (descriptor : Descriptor) (inner : List TypeId)
    (h : unionMembers? descriptor = some inner) : inner ⊆ descriptor.children := by
  cases descriptor <;> cases h
  exact List.Subset.refl _

theorem intersectionMembers?_subset (descriptor : Descriptor) (inner : List TypeId)
    (h : intersectionMembers? descriptor = some inner) : inner ⊆ descriptor.children := by
  cases descriptor <;> cases h
  exact List.Subset.refl _

/-! ## Parameters and definitions -/

theorem extends_of_descriptors_eq (same : b.descriptors = a.descriptors)
    (definitions : ∀ id definition, a.definition? id = some definition →
      ∃ later, b.definition? id = some later ∧ later.parameters = definition.parameters ∧
        (definition.body.isSome → later.body.isSome)) : a.Extends b :=
  ⟨fun type descriptor found => by rwa [lookup?, same], definitions⟩

/-- A change that leaves descriptors alone keeps an arena sound if what it adds is there. -/
theorem IsSound.of_descriptors_eq (sound : a.IsSound full) (grown : a.Extends b)
    (same : b.descriptors = a.descriptors)
    (bodies : ∀ id definition, b.definition? id = some definition → ∀ body ∈ definition.body,
      a.WrittenIn definition.parameters body)
    (bases : ∀ id definition, b.definition? id = some definition → ∀ base ∈ definition.bases,
      a.WrittenIn definition.parameters base ∧ a.IsReference base)
    (defaults : ∀ id type, b.default? id = some type → type.index < a.descriptors.size) :
    b.IsSound full where
  builtin type descriptor found := grown.descriptors _ _ (sound.builtin type descriptor found)
  ordered := isOrdered_iff.2 fun type descriptor found =>
    isOrdered_iff.1 sound.ordered type descriptor (by rwa [lookup?, same] at found)
  references type target arguments found :=
    (sound.references type target arguments (by rwa [lookup?, same] at found)).extends grown
  bodies id definition known body given :=
    grown.writtenIn sound.ordered (bodies id definition known body given)
  bases id definition known base inside := by
    obtain ⟨written, reference⟩ := bases id definition known base inside
    exact ⟨grown.writtenIn sound.ordered written, reference.extends grown⟩
  defaults id type given := grown.index_lt (defaults id type given)

/-- The definitions after one of them has changed. -/
theorem definition?_modify {id other : DefinitionId} {change : Definition → Definition}
    {definition : Definition}
    (known : { a with definitions := a.definitions.modify id.index change }.definition? other =
      some definition) :
    ∃ before, a.definition? other = some before ∧
      definition = if other = id then change before else before := by
  simp only [definition?, Array.getElem?_modify] at known
  split at known
  · rename_i same
    obtain ⟨before, found, rfl⟩ := Option.map_eq_some_iff.1 known
    have equal : other = id := by cases other; cases id; simp_all
    exact ⟨before, found, by rw [if_pos equal]⟩
  · rename_i different
    have unequal : other ≠ id := by rintro rfl; exact different rfl
    exact ⟨definition, known, by rw [if_neg unequal]⟩

theorem extends_modify {id : DefinitionId} {change : Definition → Definition}
    (parameters : ∀ definition, (change definition).parameters = definition.parameters)
    (body : ∀ definition, definition.body.isSome → (change definition).body.isSome) :
    a.Extends { a with definitions := a.definitions.modify id.index change } := by
  refine extends_of_descriptors_eq rfl fun other definition known => ?_
  by_cases same : id.index = other.index
  · refine ⟨change definition, ?_, parameters definition, body definition⟩
    rw [definition?] at known
    simp [definition?, Array.getElem?_modify, same, known]
  · refine ⟨definition, ?_, rfl, fun given => given⟩
    rw [definition?] at known
    simp [definition?, Array.getElem?_modify, same, known]

theorem extends_define (a : Arena) (id : DefinitionId) (body : TypeId) : a.Extends (a.define id body) :=
  extends_modify (fun _ => rfl) fun _ _ => rfl

theorem extends_addBase (a : Arena) (id : DefinitionId) (base : TypeId) :
    a.Extends (a.addBase id base) :=
  extends_modify (fun _ => rfl) fun _ given => given

theorem IsSound.define (sound : a.IsSound full) {id : DefinitionId} {body : TypeId}
    (written : ∀ definition, a.definition? id = some definition →
      a.WrittenIn definition.parameters body) : (a.define id body).IsSound full := by
  refine sound.of_descriptors_eq (extends_define a id body) rfl
    (fun other definition known given isBody => ?_) (fun other definition known base inside => ?_)
    sound.defaults
  · obtain ⟨before, found, rfl⟩ := definition?_modify known
    by_cases same : other = id
    · subst same
      simp only [if_true, Option.mem_some_iff] at isBody ⊢
      subst isBody
      exact written before found
    · simp only [same, if_false] at isBody ⊢
      exact sound.bodies other before found given isBody
  · obtain ⟨before, found, rfl⟩ := definition?_modify known
    have kept : (if other = id then { before with body := some body } else before).bases =
        before.bases ∧ (if other = id then { before with body := some body } else before).parameters =
          before.parameters := by
      split <;> exact ⟨rfl, rfl⟩
    rw [kept.1] at inside
    rw [kept.2]
    exact sound.bases other before found base inside

theorem IsSound.addBase (sound : a.IsSound full) {id : DefinitionId} {base : TypeId}
    (written : ∀ definition, a.definition? id = some definition →
      a.WrittenIn definition.parameters base) (reference : a.IsReference base) :
    (a.addBase id base).IsSound full := by
  refine sound.of_descriptors_eq (extends_addBase a id base) rfl
    (fun other definition known body isBody => ?_) (fun other definition known listed inside => ?_)
    sound.defaults
  · obtain ⟨before, found, rfl⟩ := definition?_modify known
    have kept : (if other = id then { before with bases := before.bases ++ [base] } else before).body =
        before.body ∧ (if other = id then { before with bases := before.bases ++ [base] }
          else before).parameters = before.parameters := by
      split <;> exact ⟨rfl, rfl⟩
    rw [kept.1] at isBody
    rw [kept.2]
    exact sound.bodies other before found body isBody
  · obtain ⟨before, found, rfl⟩ := definition?_modify known
    by_cases same : other = id
    · subst same
      simp only [if_true, List.mem_append, List.mem_singleton] at inside ⊢
      rcases inside with inside | rfl
      · exact sound.bases other before found listed inside
      · exact ⟨written before found, reference⟩
    · simp only [same, if_false] at inside ⊢
      exact sound.bases other before found listed inside

theorem extends_setDefault (a : Arena) (id : ParameterId) (type : TypeId) :
    a.Extends (a.setDefault id type) :=
  extends_of_descriptors_eq rfl fun _ definition known => ⟨definition, known, rfl, fun given => given⟩

theorem IsSound.setDefault (sound : a.IsSound full) {id : ParameterId} {type : TypeId}
    (there : type.index < a.descriptors.size) : (a.setDefault id type).IsSound full := by
  refine sound.of_descriptors_eq (extends_setDefault a id type) rfl sound.bodies sound.bases
    fun other given found => ?_
  simp only [default?, parameter?, Arena.setDefault, Array.getElem?_modify] at found
  split at found
  · obtain ⟨info, changed, isDefault⟩ := Option.bind_eq_some_iff.1 found
    obtain ⟨before, -, rfl⟩ := Option.map_eq_some_iff.1 changed
    obtain rfl : type = given := by simpa using isDefault
    exact there
  · exact sound.defaults other given found

theorem extends_declare (a : Arena) (name : String) (parameters : List ParameterId) :
    a.Extends (a.declare name parameters).2 := by
  refine extends_of_descriptors_eq rfl fun id definition known => ⟨definition, ?_, rfl, fun h => h⟩
  obtain ⟨inside, rfl⟩ := Array.getElem?_eq_some_iff.1 known
  simp [declare, definition?, Array.getElem?_push, Nat.ne_of_lt inside]

theorem definition?_declare {name : String} {parameters : List ParameterId} {id : DefinitionId}
    {definition : Definition} (known : (a.declare name parameters).2.definition? id = some definition) :
    a.definition? id = some definition ∨
      id = (a.declare name parameters).1 ∧ definition = ⟨name, parameters, none, []⟩ := by
  simp only [declare, definition?, Array.getElem?_push] at known ⊢
  split at known
  · rename_i last
    cases known
    exact .inr ⟨by cases id; simp_all, rfl⟩
  · exact .inl known

theorem IsSound.declare (sound : a.IsSound full) (name : String) (parameters : List ParameterId) :
    (a.declare name parameters).2.IsSound full := by
  refine sound.of_descriptors_eq (extends_declare a name parameters) rfl
    (fun id definition known => ?_) (fun id definition known => ?_) sound.defaults
  · rcases definition?_declare known with before | ⟨-, rfl⟩
    · exact sound.bodies id definition before
    · exact nofun
  · rcases definition?_declare known with before | ⟨-, rfl⟩
    · exact sound.bases id definition before
    · exact nofun

/-- A parameter is declared by adding it, then its descriptor. -/
theorem addParameter_eq (a : Arena) (name : String) :
    a.addParameter name =
      (⟨a.parameters.size⟩,
        { a with parameters := a.parameters.push ⟨name, none⟩ }.intern (.parameter ⟨a.parameters.size⟩)) :=
  rfl

theorem extends_addParameter (a : Arena) (name : String) : a.Extends (a.addParameter name).2.2 := by
  rw [addParameter_eq]
  refine Extends.trans ?_ (extends_intern _ _)
  exact extends_of_descriptors_eq rfl fun _ definition known => ⟨definition, known, rfl, fun given => given⟩

theorem IsSound.addParameter (sound : a.IsSound full) (name : String) :
    (a.addParameter name).2.2.IsSound full := by
  rw [addParameter_eq]
  have added : IsSound full { a with parameters := a.parameters.push ⟨name, none⟩ } := by
    refine sound.of_descriptors_eq ?_ rfl sound.bodies sound.bases fun id type given => ?_
    · exact extends_of_descriptors_eq rfl fun _ definition known =>
        ⟨definition, known, rfl, fun given => given⟩
    · refine sound.defaults id type ?_
      simp only [default?, parameter?, Array.getElem?_push] at given ⊢
      split at given
      · cases given
      · exact given
  exact added.intern nofun nofun

theorem writtenIn_addParameter (a : Arena) (name : String) :
    (a.addParameter name).2.2.WrittenIn [(a.addParameter name).1] (a.addParameter name).2.1 := by
  rw [addParameter_eq]
  have found := lookup?_intern { a with parameters := a.parameters.push ⟨name, none⟩ }
    (.parameter ⟨a.parameters.size⟩)
  refine ⟨index_lt_of_lookup? found, fun id inside => ?_⟩
  rwa [treeOf_parameter found, TypeTree.parameters] at inside

end Arena

end ShapeCheck
