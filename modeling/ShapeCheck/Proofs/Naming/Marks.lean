import Mathlib
import ShapeCheck.Proofs.Meaning.Equations
import ShapeCheck.Proofs.Naming.Depth
import ShapeCheck.Proofs.Naming.Quotation

set_option autoImplicit false

/-! # Marks in names

A type that is checked for superfluous keys has marks in its name wherever the check matters. So if a
type has one name with and without the check, the check makes no difference for it. This is shown by
counting characters: marks make a name longer, and so nothing else can make up for them.

Main fact: `Arena.iff_of_sameName`.
-/

namespace ShapeCheck

/-! ## Lengths -/

theorem length_intercalate (separator : String) (texts : List String) :
    (separator.intercalate texts).length =
      (texts.map String.length).sum + separator.length * (texts.length - 1) := by
  induction texts with
  | nil => simp
  | cons text rest ih =>
    cases rest with
    | nil => simp
    | cons next rest =>
      rw [String.intercalate_cons_cons, String.length_append, String.length_append, ih]
      simp only [List.map_cons, List.sum_cons, List.length_cons, Nat.add_sub_cancel, Nat.mul_succ]
      omega

theorem length_intercalate_perm (separator : String) {texts texts' : List String}
    (h : texts.Perm texts') :
    (separator.intercalate texts).length = (separator.intercalate texts').length := by
  rw [length_intercalate, length_intercalate, (h.map String.length).sum_nat, h.length_eq]

section
variable {α : Type} {f g : α → String} {items : List α} (separator : String)
  (le : ∀ a ∈ items, (f a).length ≤ (g a).length)
include le

theorem length_intercalate_le :
    (separator.intercalate (items.map f)).length ≤ (separator.intercalate (items.map g)).length := by
  have sums := List.sum_le_sum le
  rw [length_intercalate, length_intercalate]
  simp only [List.map_map, List.length_map, Function.comp_def]
  omega

/-- If joined texts are no longer, none of them is. -/
theorem length_eq_of_intercalate
    (same : (separator.intercalate (items.map f)).length =
      (separator.intercalate (items.map g)).length) :
    ∀ a ∈ items, (f a).length = (g a).length := by
  intro a inside
  by_contra different
  have sums : (items.map fun a => (f a).length).sum < (items.map fun a => (g a).length).sum :=
    List.sum_lt_sum _ _ le ⟨a, inside, Nat.lt_of_le_of_ne (le a inside) different⟩
  rw [length_intercalate, length_intercalate] at same
  simp only [List.map_map, List.length_map, Function.comp_def] at same
  omega

end

/-- Sorting the different texts that belong to some items: one for each item, if different items have
different texts. -/
theorem sortUnique_map_perm {α : Type} [DecidableEq α] {f : α → String} {items : List α}
    (injective : ∀ a ∈ items, ∀ b ∈ items, f a = f b → a = b) :
    (Text.sortUnique (items.map f)).Perm (items.dedup.map f) := by
  have sorted : (Text.sortUnique (items.map f)).Nodup :=
    (Text.pairwise_sortUnique _).imp fun {a b} (less : a < b) (same : a = b) => by
      subst same
      exact String.lt_irrefl a less
  have different : (items.dedup.map f).Nodup :=
    (List.nodup_dedup items).map_on fun a ha b hb same =>
      injective a (List.mem_dedup.1 ha) b (List.mem_dedup.1 hb) same
  rw [List.perm_ext_iff_of_nodup sorted different]
  intro text
  simp [Text.mem_sortUnique]

/-! ## Spelled names -/

theorem eq_map_of_mapM_eq_ok {ε α : Type} {f : α → Except ε String} {as : List α}
    {texts : List String} (h : as.mapM f = .ok texts) :
    (∀ a ∈ as, ∃ text, f a = .ok text) ∧ texts = as.map fun a => (f a).toOption.getD "" := by
  have related := mapM_eq_ok.1 h
  clear h
  induction related with
  | nil => exact ⟨by simp, rfl⟩
  | @cons a text as texts here _ ih =>
    refine ⟨List.forall_mem_cons.2 ⟨⟨text, here⟩, ih.1⟩, ?_⟩
    rw [List.map_cons, here, ← ih.2]
    rfl

namespace Arena

variable {arena : Arena}

/-- The name of a type within a depth, or nothing. -/
def spelled (arena : Arena) (depth : Nat) (exact : Bool) (type : TypeId) : String :=
  (typeNameWithin arena depth [] exact type).toOption.getD ""

/-- The type has a name within the depth, both with and without the check for superfluous keys. -/
def HasNames (arena : Arena) (depth : Nat) (type : TypeId) : Prop :=
  ∀ exact, ∃ name, typeNameWithin arena depth [] exact type = .ok name

/-- Marks make the name of the type longer, unless they make no difference for the type. -/
structure MarksTell (arena : Arena) (A : TypeId → Bool → Value → Prop) (depth : Nat)
    (type : TypeId) : Prop where
  le : (arena.spelled depth false type).length ≤ (arena.spelled depth true type).length
  same : (arena.spelled depth false type).length = (arena.spelled depth true type).length →
    ∀ v, A type true v ↔ A type false v

theorem spelled_eq {depth : Nat} {exact : Bool} {type : TypeId} {name : String}
    (h : typeNameWithin arena depth [] exact type = .ok name) :
    arena.spelled depth exact type = name := by
  rw [spelled, h]
  rfl

/-- The name of a type is made from its descriptor. -/
theorem nameWith_of_hasNames {depth : Nat} {type : TypeId} (named : arena.HasNames (depth + 1) type)
    {descriptor : Descriptor} (found : arena.lookup? type = some descriptor) (exact : Bool) :
    descriptor.nameWith arena (typeNameWithin arena depth) [] exact =
      .ok (arena.spelled (depth + 1) exact type) := by
  obtain ⟨name, made⟩ := named exact
  rw [spelled_eq made]
  unfold typeNameWithin at made
  obtain ⟨descriptor', found', made⟩ := bind_eq_ok.1 made
  simp only [lookup, found, Except.ok.injEq] at found'
  rwa [← found'] at made

section
variable {root : Goal} {A : TypeId → Bool → Value → Prop} (plain : arena.IsMonomorphic root)
  (apart : arena.NamesApart root) (solves : arena.Solves root A) {type : TypeId}
  (marked : Goal.IsBuilt arena root (.ofType type true))
  (loose : Goal.IsBuilt arena root (.ofType type false))

include solves marked loose in
/-- Equations that do not look at the check make no difference for it. -/
theorem iff_of_admits_iff {descriptor : Descriptor} (found : arena.lookup? type = some descriptor)
    (same : ∀ v, descriptor.Admits A true v arena type ↔ descriptor.Admits A false v arena type)
    (v : Value) : A type true v ↔ A type false v := by
  rw [solves type true marked v, solves type false loose v]
  simp only [Admits, found, Option.some.injEq, exists_eq_left', same v]

/-! ## Composite types -/

variable {depth : Nat} (named : arena.HasNames (depth + 1) type)
  (ih : ∀ part, Goal.IsBuilt arena root (.ofType part true) →
    Goal.IsBuilt arena root (.ofType part false) → arena.HasNames depth part →
      arena.MarksTell A depth part)

include solves marked loose named ih in
theorem marksTell_array {element : TypeId} (found : arena.lookup? type = some (.array element)) :
    arena.MarksTell A (depth + 1) type := by
  have spelling (exact : Bool) : (∃ name, typeNameWithin arena depth [] exact element = .ok name) ∧
      arena.spelled (depth + 1) exact type = "Array<" ++ arena.spelled depth exact element ++ ">" := by
    obtain ⟨name, made, whole⟩ := bind_eq_ok.1 (nameWith_of_hasNames named found exact)
    rw [spelled_eq made]
    exact ⟨⟨name, made⟩, (Except.ok.inj whole).symm⟩
  have part := ih element (marked.step (.array found)) (loose.step (.array found))
    fun exact => (spelling exact).1
  have lengths (exact : Bool) : (arena.spelled (depth + 1) exact type).length =
      (arena.spelled depth exact element).length + 7 := by
    rw [(spelling exact).2, String.length_append, String.length_append]
    show 6 + _ + 1 = _
    omega
  refine ⟨?_, fun same => iff_of_admits_iff solves marked loose found fun v => ?_⟩
  · rw [lengths, lengths]
    exact Nat.add_le_add_right part.le 7
  · rw [lengths, lengths] at same
    have parts := part.same (Nat.add_right_cancel same)
    simp only [Descriptor.Admits, parts]

theorem isBuilt_element {elements : List TupleElement} {element : TupleElement} {exact : Bool}
    (built : Goal.IsBuilt arena root (.ofType type exact))
    (found : arena.lookup? type = some (.tuple elements)) (inside : element ∈ elements) :
    Goal.IsBuilt arena root (.ofType element.type exact) := by
  have here := built.step (.element found inside)
  split at here
  · exact here.step (.optional _ _)
  · exact here

include solves marked loose named ih in
theorem marksTell_tuple {elements : List TupleElement}
    (found : arena.lookup? type = some (.tuple elements)) :
    arena.MarksTell A (depth + 1) type := by
  let spell (exact : Bool) (element : TupleElement) : String :=
    (element.nameWith (typeNameWithin arena depth) [] exact).toOption.getD ""
  have spelling (exact : Bool) :
      (∀ element ∈ elements, ∃ name, typeNameWithin arena depth [] exact element.type = .ok name ∧
        spell exact element = if element.optional then name ++ "?" else name) ∧
      arena.spelled (depth + 1) exact type =
        "[" ++ ", ".intercalate (elements.map (spell exact)) ++ "]" := by
    obtain ⟨names, made, whole⟩ := bind_eq_ok.1 (nameWith_of_hasNames named found exact)
    obtain ⟨each, rfl⟩ := eq_map_of_mapM_eq_ok made
    refine ⟨fun element inside => ?_, (Except.ok.inj whole).symm⟩
    obtain ⟨text, here⟩ := each element inside
    obtain ⟨name, inner, outer⟩ := bind_eq_ok.1 here
    refine ⟨name, inner, ?_⟩
    show (element.nameWith (typeNameWithin arena depth) [] exact).toOption.getD "" = _
    rw [here]
    exact (Except.ok.inj outer).symm
  have parts (element : TupleElement) (inside : element ∈ elements) :
      arena.MarksTell A depth element.type :=
    ih element.type (isBuilt_element marked found inside) (isBuilt_element loose found inside)
      fun exact => let ⟨name, made, _⟩ := (spelling exact).1 element inside; ⟨name, made⟩
  have lengths (exact : Bool) (element : TupleElement) (inside : element ∈ elements) :
      (spell exact element).length =
        (arena.spelled depth exact element.type).length + if element.optional then 1 else 0 := by
    obtain ⟨name, made, spelled⟩ := (spelling exact).1 element inside
    rw [spelled_eq made, spelled]
    split
    · exact String.length_append name "?"
    · rfl
  have le (element : TupleElement) (inside : element ∈ elements) :
      (spell false element).length ≤ (spell true element).length := by
    rw [lengths _ _ inside, lengths _ _ inside]
    exact Nat.add_le_add_right (parts element inside).le _
  refine ⟨?_, fun same => iff_of_admits_iff solves marked loose found fun v => ?_⟩
  · rw [(spelling false).2, (spelling true).2]
    simp only [String.length_append]
    exact Nat.add_le_add_right (Nat.add_le_add_left (length_intercalate_le ", " le) _) _
  · rw [(spelling false).2, (spelling true).2] at same
    simp only [String.length_append, Nat.add_right_cancel_iff, Nat.add_left_cancel_iff] at same
    have equal := length_eq_of_intercalate ", " le same
    have sameParts (element : TupleElement) (inside : element ∈ elements) (w : Value) :
        A element.type true w ↔ A element.type false w := by
      have here := equal element inside
      rw [lengths _ _ inside, lengths _ _ inside] at here
      exact (parts element inside).same (Nat.add_right_cancel here) w
    have sides (exact exact' : Bool) (agree : ∀ element ∈ elements, ∀ w,
        A element.type exact w → A element.type exact' w)
        (admits : TupleElement.AllAdmit A exact v elements) :
        TupleElement.AllAdmit A exact' v elements :=
      ⟨admits.isArray, admits.least, admits.most, fun position element listed =>
        (admits.elements position element listed).imp_right
          (agree element (List.mem_of_getElem? listed) _)⟩
    exact ⟨sides true false fun element inside w => (sameParts element inside w).1,
      sides false true fun element inside w => (sameParts element inside w).2⟩

/-- A name with a mark is longer. -/
theorem marksTell_of_mark (inner : Bool → String)
    (spelling : ∀ exact, arena.spelled depth exact type = exactMark exact ++ inner exact)
    (le : (inner false).length ≤ (inner true).length) : arena.MarksTell A depth type := by
  have lengths : (arena.spelled depth false type).length < (arena.spelled depth true type).length := by
    rw [spelling, spelling, String.length_append, String.length_append]
    show 0 + _ < 6 + _
    omega
  exact ⟨Nat.le_of_lt lengths, fun same => absurd same (Nat.ne_of_lt lengths)⟩

theorem length_property_le {property : Property}
    {name : Substitution → Bool → TypeId → Except CompileError String} {text text' : String}
    (made : property.nameWith name [] false = .ok text)
    (made' : property.nameWith name [] true = .ok text')
    (le : ∀ part, property.method = false → property.type = some part → ∀ inner inner',
      name [] false part = .ok inner → name [] true part = .ok inner' →
        inner.length ≤ inner'.length) : text.length ≤ text'.length := by
  unfold Property.nameWith at made made'
  split at made
  · rename_i method
    rw [if_pos method] at made'
    obtain rfl := Except.ok.inj made
    obtain rfl := Except.ok.inj made'
    exact Nat.le_refl _
  · rename_i field
    rw [if_neg field] at made'
    cases declared : property.type with
    | none =>
      rw [declared] at made made'
      obtain rfl := Except.ok.inj made
      obtain rfl := Except.ok.inj made'
      exact Nat.le_refl _
    | some part =>
      rw [declared] at made made'
      obtain ⟨inner, named, made⟩ := bind_eq_ok.1 made
      obtain ⟨inner', named', made'⟩ := bind_eq_ok.1 made'
      obtain rfl := Except.ok.inj made
      obtain rfl := Except.ok.inj made'
      have shorter := le part (by simpa using field) declared inner inner' named named'
      simp only [String.length_append]
      omega

include marked loose named ih in
theorem marksTell_object {shape : ObjectShape}
    (found : arena.lookup? type = some (.object shape)) :
    arena.MarksTell A (depth + 1) type := by
  let members := shape.properties.filter (!·.symbolKeyed)
  let spellMember (exact : Bool) (property : Property) : String :=
    (property.nameWith (typeNameWithin arena depth) [] exact).toOption.getD ""
  let spellIndex (exact : Bool) (part : TypeId) : String :=
    (do return "[key: string]: " ++ (← typeNameWithin arena depth [] exact part) :
      Except CompileError String).toOption.getD ""
  let inner (exact : Bool) : String := "\x7b" ++ "; ".intercalate
    (Text.sort (members.map (spellMember exact)) ++ shape.index.toList.map (spellIndex exact)) ++
      "\x7d"
  have spelling (exact : Bool) :
      (∀ property ∈ members, ∃ text,
        property.nameWith (typeNameWithin arena depth) [] exact = .ok text) ∧
      (∀ part ∈ shape.index.toList, ∃ name, typeNameWithin arena depth [] exact part = .ok name) ∧
      arena.spelled (depth + 1) exact type = exactMark exact ++ inner exact := by
    obtain ⟨text, made, whole⟩ := bind_eq_ok.1 (nameWith_of_hasNames named found exact)
    obtain ⟨names, memberNames, made⟩ := bind_eq_ok.1 made
    obtain ⟨texts, indexNames, made⟩ := bind_eq_ok.1 made
    obtain ⟨eachMember, rfl⟩ := eq_map_of_mapM_eq_ok memberNames
    obtain ⟨eachIndex, rfl⟩ := eq_map_of_mapM_eq_ok indexNames
    obtain rfl := Except.ok.inj made
    refine ⟨eachMember, fun part inside => ?_, (Except.ok.inj whole).symm⟩
    obtain ⟨text, here⟩ := eachIndex part inside
    obtain ⟨name, made, -⟩ := bind_eq_ok.1 here
    exact ⟨name, made⟩
  have partLe (part : TypeId) (built : ∀ exact, Goal.IsBuilt arena root (.ofType part exact))
      (name name' : String) (made : typeNameWithin arena depth [] false part = .ok name)
      (made' : typeNameWithin arena depth [] true part = .ok name') : name.length ≤ name'.length := by
    have le := (ih part (built true) (built false) (Bool.forall_bool.2 ⟨⟨_, made⟩, ⟨_, made'⟩⟩)).le
    rwa [spelled_eq made, spelled_eq made'] at le
  have memberLe (property : Property) (inside : property ∈ members) :
      (spellMember false property).length ≤ (spellMember true property).length := by
    obtain ⟨listed, texts⟩ := List.mem_filter.1 inside
    obtain ⟨text, made⟩ := (spelling false).1 property inside
    obtain ⟨text', made'⟩ := (spelling true).1 property inside
    simp only [spellMember, made, made']
    refine length_property_le made made' fun part field declared => ?_
    have texts : property.symbolKeyed = false := by simpa using texts
    exact partLe part (Bool.forall_bool.2
      ⟨loose.step (.property found listed texts field declared),
        marked.step (.property found listed texts field declared)⟩)
  have indexLe (part : TypeId) (inside : part ∈ shape.index.toList) :
      (spellIndex false part).length ≤ (spellIndex true part).length := by
    have declared : shape.index = some part := by simpa using inside
    obtain ⟨name, made⟩ := (spelling false).2.1 part inside
    obtain ⟨name', made'⟩ := (spelling true).2.1 part inside
    have le := partLe part (Bool.forall_bool.2 ⟨loose.step (.index found declared),
      marked.step (.index found declared)⟩) name name' made made'
    simp only [spellIndex, made, made']
    show ("[key: string]: " ++ name).length ≤ ("[key: string]: " ++ name').length
    rw [String.length_append, String.length_append]
    omega
  refine marksTell_of_mark inner (fun exact => (spelling exact).2.2) ?_
  -- the members are sorted by their names, which does not change how long they are together
  have unsorted (exact : Bool) : ("; ".intercalate (Text.sort (members.map (spellMember exact)) ++
      shape.index.toList.map (spellIndex exact))).length =
        ("; ".intercalate ((members.map Sum.inl ++ shape.index.toList.map Sum.inr).map
          (Sum.elim (spellMember exact) (spellIndex exact)))).length := by
    refine length_intercalate_perm "; " ?_
    simp only [List.map_append, List.map_map, Sum.elim_comp_inl, Sum.elim_comp_inr]
    exact (List.mergeSort_perm _ _).append_right _
  simp only [inner, String.length_append, unsorted]
  refine Nat.add_le_add_right (Nat.add_le_add_left (length_intercalate_le "; " ?_) _) _
  rintro (property | part) inside
  · exact memberLe property (by simpa using inside)
  · exact indexLe part (by simpa using inside)

include apart solves marked loose named ih in
theorem marksTell_union (small : depth ≤ maxUnfoldingDepth) {members : List TypeId}
    (found : arena.lookup? type = some (.union members)) :
    arena.MarksTell A (depth + 1) type := by
  have spelling (exact : Bool) :
      (∀ member ∈ members, ∃ name, typeNameWithin arena depth [] exact member = .ok name) ∧
      arena.spelled (depth + 1) exact type =
        " | ".intercalate (Text.sortUnique (members.map (arena.spelled depth exact))) := by
    obtain ⟨names, made, whole⟩ := bind_eq_ok.1 (nameWith_of_hasNames named found exact)
    obtain ⟨each, rfl⟩ := eq_map_of_mapM_eq_ok made
    exact ⟨each, (Except.ok.inj whole).symm⟩
  have built (exact : Bool) (member : TypeId) (inside : member ∈ members) :
      Goal.IsBuilt arena root (.ofType member exact) := by
    cases exact with
    | false => exact loose.step (.union found inside)
    | true => exact marked.step (.union found inside)
  -- members of one name are one type, so each type counts once, with and without marks
  have injective (exact : Bool) : ∀ member ∈ members, ∀ member' ∈ members,
      arena.spelled depth exact member = arena.spelled depth exact member' → member = member' := by
    intro member inside member' inside' same
    obtain ⟨name, made⟩ := (spelling exact).1 member inside
    obtain ⟨name', made'⟩ := (spelling exact).1 member' inside'
    rw [spelled_eq made, spelled_eq made'] at same
    obtain ⟨exact', goals⟩ := apart _ _ name (built exact member inside)
      (built exact member' inside') (typeNameWithin_mono small _ _ _ _ made)
      (typeNameWithin_mono small _ _ _ _ (same ▸ made')) member exact rfl
    exact (Goal.ofType.inj goals).1.symm
  have lengths (exact : Bool) : (arena.spelled (depth + 1) exact type).length =
      (" | ".intercalate (members.dedup.map (arena.spelled depth exact))).length := by
    rw [(spelling exact).2]
    exact length_intercalate_perm " | " (sortUnique_map_perm (injective exact))
  have parts (member : TypeId) (inside : member ∈ members.dedup) :
      arena.MarksTell A depth member :=
    have inside := List.mem_dedup.1 inside
    ih member (built true member inside) (built false member inside)
      fun exact => (spelling exact).1 member inside
  refine ⟨?_, fun same => iff_of_admits_iff solves marked loose found fun v => ?_⟩
  · rw [lengths, lengths]
    exact length_intercalate_le " | " fun member inside => (parts member inside).le
  · rw [lengths, lengths] at same
    have equal := length_eq_of_intercalate " | " (fun member inside => (parts member inside).le) same
    have sameParts (member : TypeId) (inside : member ∈ members) : A member true v ↔ A member false v :=
      (parts member (List.mem_dedup.2 inside)).same (equal member (List.mem_dedup.2 inside)) v
    exact exists_congr fun member => and_congr_right fun inside => sameParts member inside

include named in
theorem marksTell_intersection {members : List TypeId}
    (found : arena.lookup? type = some (.intersection members)) :
    arena.MarksTell A (depth + 1) type := by
  obtain ⟨inner, made, -⟩ := bind_eq_ok.1 (nameWith_of_hasNames named found false)
  refine marksTell_of_mark (fun _ => inner) (fun exact => ?_) (Nat.le_refl _)
  obtain ⟨inner', made', whole⟩ := bind_eq_ok.1 (nameWith_of_hasNames named found exact)
  obtain rfl := Except.ok.inj (made.symm.trans made')
  exact (Except.ok.inj whole).symm

include plain loose named in
theorem marksTell_reference {target : DefinitionId} {arguments : List TypeId}
    (found : arena.lookup? type = some (.reference target arguments)) :
    arena.MarksTell A (depth + 1) type := by
  have simple := plain type false loose _ found
  refine marksTell_of_mark (fun _ => arena.definitionName target) (fun exact => ?_)
    (Nat.le_refl _)
  obtain ⟨inner, made, whole⟩ := bind_eq_ok.1 (nameWith_of_hasNames named found exact)
  have base : referenceNameWith arena (typeNameWithin arena depth) [] exact target arguments =
      .ok (arena.definitionName target) := by
    unfold referenceNameWith
    cases leads : arena.definition? target with
    | none => rfl
    | some definition =>
      simp only [(simple definition leads).1, List.isEmpty_nil, if_true]
      rfl
  obtain rfl := Except.ok.inj (base.symm.trans made)
  exact (Except.ok.inj whole).symm

/-! ## All types -/

include plain apart solves in
theorem marksTell (depth : Nat) (small : depth ≤ maxUnfoldingDepth) (type : TypeId)
    (marked : Goal.IsBuilt arena root (.ofType type true))
    (loose : Goal.IsBuilt arena root (.ofType type false)) (named : arena.HasNames depth type) :
    arena.MarksTell A depth type := by
  induction depth generalizing type with
  | zero =>
    obtain ⟨name, made⟩ := named true
    cases made
  | succ depth ih =>
    have below := ih (Nat.le_of_succ_le small)
    cases found : arena.lookup? type with
    | none =>
      obtain ⟨name, made⟩ := named true
      obtain ⟨descriptor, found', -⟩ := bind_eq_ok.1 made
      simp [lookup, found] at found'
    | some descriptor =>
      have monomorphic := plain type true marked descriptor found
      cases descriptor with
      | array element => exact marksTell_array solves marked loose named below found
      | tuple elements => exact marksTell_tuple solves marked loose named below found
      | object shape => exact marksTell_object marked loose named below found
      | union members =>
        exact marksTell_union apart solves marked loose named below (Nat.le_of_succ_le small) found
      | intersection members => exact marksTell_intersection named found
      | reference target arguments => exact marksTell_reference plain loose named found
      | parameter | indexAccess | keyof => exact monomorphic.elim
      | keyword | stringLiteral | numberLiteral | booleanLiteral | buffer | view =>
        have spelling (exact : Bool) := nameWith_of_hasNames named found exact
        have same : arena.spelled (depth + 1) false type = arena.spelled (depth + 1) true type :=
          Except.ok.inj ((spelling false).symm.trans (spelling true))
        exact ⟨Nat.le_of_eq (by rw [same]), fun _ =>
          iff_of_admits_iff solves marked loose found fun v => Iff.rfl⟩

include plain apart solves in
/-- If a type has one name with and without the check for superfluous keys, the check makes no
difference for it. -/
theorem iff_of_sameName {type : TypeId} (marked : Goal.IsBuilt arena root (.ofType type true))
    (loose : Goal.IsBuilt arena root (.ofType type false)) {name : String}
    (named : arena.typeName [] true type = .ok name)
    (named' : arena.typeName [] false type = .ok name) (v : Value) :
    A type true v ↔ A type false v := by
  have tells := marksTell plain apart solves maxUnfoldingDepth (Nat.le_refl _) type marked loose
    (Bool.forall_bool.2 ⟨⟨name, named'⟩, ⟨name, named⟩⟩)
  exact tells.same (by rw [spelled_eq named, spelled_eq named']) v

end

end Arena

end ShapeCheck
