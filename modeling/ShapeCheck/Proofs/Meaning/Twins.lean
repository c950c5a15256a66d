import ShapeCheck.Proofs.Meaning.Alike
import ShapeCheck.Proofs.Naming.Unfolding

set_option autoImplicit false

/-! # Types of one name

Types whose names can be read admit the same values if they have the same name. The largest family
that satisfies the type equations is a greatest one, so it is enough to find a family that is
contained in its own equations: the values that some type of the same name has. Unions and
intersections are compared by what they unfold into, everything else part by part.

Main fact: `Arena.Legible.largest_iff`.
-/

namespace ShapeCheck

variable {arena : Arena}

/-! ## Unfolded meanings -/

namespace Arena

theorem admits_of_largest {type : TypeId} {exact : Bool} {v : Value}
    (admits : arena.Largest type exact v) {descriptor : Descriptor}
    (found : arena.lookup? type = some descriptor) :
    descriptor.Admits arena.Largest exact v arena type := by
  obtain ⟨descriptor', found', here⟩ := (arena.largest_solves type exact v).1 admits
  obtain rfl := Option.some.inj (found.symm.trans found')
  exact here

/-- A value of a union has one of the types that the union unfolds into. -/
theorem exists_alternative_admits {type : TypeId} {exact : Bool} {v : Value} {name : String}
    (named : arena.HasName exact type name) (admits : arena.Largest type exact v) :
    ∃ target, arena.Unfolds Descriptor.alternatives? type target ∧ arena.Largest target exact v := by
  obtain ⟨depth, made⟩ := named
  induction depth generalizing type name with
  | zero => cases made
  | succ depth ih =>
    obtain ⟨below, descriptor, same, found, made⟩ := nameWith_of_within made
    obtain rfl := Nat.succ.inj same
    cases parts : descriptor.alternatives? with
    | none => exact ⟨type, .self found parts, admits⟩
    | some members =>
      obtain rfl : descriptor = .union members := by
        cases descriptor <;> cases parts
        rfl
      obtain ⟨member, inside, there⟩ := admits_of_largest admits found
      obtain ⟨names, each, -⟩ := bind_eq_ok.1 made
      obtain ⟨name, -, made⟩ := exists_right_of_forall₂ (mapM_eq_ok.1 each) inside
      obtain ⟨target, unfolds, here⟩ := ih there made
      exact ⟨target, .part found rfl inside unfolds, here⟩

/-- A value of an intersection has all types that the intersection unfolds into. -/
theorem largest_of_unfolds {type target : TypeId} {v : Value}
    (unfolds : arena.Unfolds Descriptor.conjuncts? type target)
    (admits : arena.Largest type false v) : arena.Largest target false v := by
  induction unfolds with
  | self => exact admits
  | @part type member target descriptor members found parts inside _ ih =>
    obtain rfl : descriptor = .intersection members := by
      cases descriptor <;> cases parts
      rfl
    exact ih ((admits_of_largest admits found).1 member inside)

theorem largest_of_unfolds_intersection {type target : TypeId} {exact : Bool} {v : Value}
    {members : List TypeId} (found : arena.lookup? type = some (.intersection members))
    (unfolds : arena.Unfolds Descriptor.conjuncts? type target)
    (admits : arena.Largest type exact v) : arena.Largest target false v := by
  cases unfolds with
  | self found' none =>
    obtain rfl := Option.some.inj (found.symm.trans found')
    cases none
  | part found' parts inside below =>
    obtain rfl := Option.some.inj (found.symm.trans found')
    obtain rfl := Option.some.inj parts
    exact largest_of_unfolds below ((admits_of_largest admits found).1 _ inside)

/-! ## Unfolded keys -/

section
variable {K : TypeId → Prop} {type target : TypeId}

/-- What a type takes over from the sources of its keys, an intersection takes over from the types
that it unfolds into. -/
theorem of_unfolds (source : ∀ type source, source ∈ arena.keySources type → K source → K type)
    (unfolds : arena.Unfolds Descriptor.conjuncts? type target) (there : K target) : K type := by
  induction unfolds with
  | self => exact there
  | @part type member target descriptor members found parts inside _ ih =>
    obtain rfl : descriptor = .intersection members := by
      cases descriptor <;> cases parts
      rfl
    exact source _ member (by simpa [keySources, found] using inside) (ih there)

theorem exists_unfolds_of_source {source : TypeId} (inside : source ∈ arena.keySources type)
    (here : K type) (there : ∃ target, arena.Unfolds Descriptor.conjuncts? source target ∧ K target) :
    ∃ target, arena.Unfolds Descriptor.conjuncts? type target ∧ K target := by
  unfold keySources at inside
  split at inside
  · exact ⟨type, .self ‹_› rfl, here⟩
  · obtain ⟨target, unfolds, there⟩ := there
    exact ⟨target, .part ‹_› rfl inside unfolds, there⟩
  · exact ⟨type, .self ‹_› rfl, here⟩
  · cases inside

end

theorem openKeys_iff_unfolds {type : TypeId} : arena.OpenKeys type ↔
    ∃ target, arena.Unfolds Descriptor.conjuncts? type target ∧ arena.OpenKeys target := by
  constructor
  · intro here
    induction here with
    | @form type descriptor found isOpen =>
      refine ⟨type, .self found ?_, .form found isOpen⟩
      cases descriptor <;> first | rfl | cases isOpen
    | source inside there ih => exact exists_unfolds_of_source inside (.source inside there) ih
  · rintro ⟨target, unfolds, there⟩
    exact of_unfolds (fun _ _ => .source) unfolds there

theorem hasKey_iff_unfolds {key : String} {type : TypeId} : arena.HasKey key type ↔
    ∃ target, arena.Unfolds Descriptor.conjuncts? type target ∧ arena.HasKey key target := by
  constructor
  · intro here
    induction here with
    | @property type shape property found inside texts same =>
      exact ⟨type, .self found rfl, .property found inside texts same⟩
    | source inside there ih => exact exists_unfolds_of_source inside (.source inside there) ih
  · rintro ⟨target, unfolds, there⟩
    exact of_unfolds (fun _ _ => .source) unfolds there

end Arena

/-! ## Types of one name -/

/-- The type has no members. -/
def Arena.IsSingle (arena : Arena) (type : TypeId) : Prop :=
  ∃ descriptor, arena.lookup? type = some descriptor ∧ descriptor.alternatives? = none ∧
    descriptor.conjuncts? = none

namespace Arena.Legible

variable {Good : Goal → Prop} (h : arena.Legible Good) {type type' target : TypeId}
  {exact exact' : Bool} {name : String}
include h

theorem of_unfolds_alternatives (good : Good (.ofType type exact))
    (unfolds : arena.Unfolds Descriptor.alternatives? type target) :
    Good (.ofType target exact) ∧ ∀ members, arena.lookup? target ≠ some (.union members) := by
  induction unfolds with
  | @self type descriptor found none =>
    refine ⟨good, fun members union => ?_⟩
    obtain rfl := Option.some.inj (found.symm.trans union)
    cases none
  | @part type member target descriptor members found parts inside _ ih =>
    obtain rfl : descriptor = .union members := by
      cases descriptor <;> cases parts
      rfl
    exact ih (h.closed _ _ good (.union found inside))

theorem of_unfolds_conjuncts (good : Good (.ofType type false))
    (notUnion : ∀ members, arena.lookup? type ≠ some (.union members))
    (unfolds : arena.Unfolds Descriptor.conjuncts? type target) :
    Good (.ofType target false) ∧ arena.IsSingle target := by
  induction unfolds with
  | @self type descriptor found none =>
    refine ⟨good, descriptor, found, ?_, none⟩
    cases descriptor with
    | union members => exact absurd found (notUnion members)
    | _ => rfl
  | @part type member target descriptor members found parts inside _ ih =>
    obtain rfl : descriptor = .intersection members := by
      cases descriptor <;> cases parts
      rfl
    exact ih (h.closed _ _ good (.intersection found inside))
      ((h.legible _ _ good _ found).2.1 member inside)

theorem of_unfolds_intersection (good : Good (.ofType type exact)) {members : List TypeId}
    (found : arena.lookup? type = some (.intersection members))
    (unfolds : arena.Unfolds Descriptor.conjuncts? type target) :
    Good (.ofType target false) ∧ arena.IsSingle target := by
  cases unfolds with
  | self found' none =>
    obtain rfl := Option.some.inj (found.symm.trans found')
    cases none
  | part found' parts inside below =>
    obtain rfl := Option.some.inj (found.symm.trans found')
    obtain rfl := Option.some.inj parts
    exact h.of_unfolds_conjuncts (h.closed _ _ good (.intersection found inside))
      ((h.legible _ _ good _ found).2.1 _ inside) below

/-- Types without members that have one name are alike. -/
theorem alike (good : Good (.ofType type exact)) (good' : Good (.ofType type' exact'))
    {descriptor descriptor' : Descriptor} (found : arena.lookup? type = some descriptor)
    (found' : arena.lookup? type' = some descriptor') (single : arena.IsSingle type)
    (single' : arena.IsSingle type') (named : arena.HasName exact type name)
    (named' : arena.HasName exact' type' name) :
    Descriptor.Alike
      (fun child part => arena.HasName exact child part ∧ Good (.ofType child exact))
      (fun child part => arena.HasName exact' child part ∧ Good (.ofType child exact'))
      exact exact' descriptor descriptor' := by
  obtain ⟨_, here, notUnion, notIntersection⟩ := single
  obtain rfl := Option.some.inj (found.symm.trans here)
  obtain ⟨_, here', notUnion', notIntersection'⟩ := single'
  obtain rfl := Option.some.inj (found'.symm.trans here')
  obtain ⟨form, spells, parts, written⟩ :=
    h.exists_form good found notUnion notIntersection named
  obtain ⟨form', spells', parts', written'⟩ :=
    h.exists_form good' found' notUnion' notIntersection' named'
  have piece := Form.isPiece_core h.named parts
  have piece' := Form.isPiece_core h.named parts'
  have same : exactMark (exact && form.isMarked) ++ " & ".intercalate [form.core arena] =
      exactMark (exact' && form'.isMarked) ++ " & ".intercalate [form'.core arena] := by
    rw [String.intercalate_singleton, String.intercalate_singleton, ← written, written']
  obtain ⟨marks, cores⟩ := marked_injective (by simp) (by simp) (by simpa using piece)
    (by simpa using piece') same
  have alike := Form.alike_of_core_eq h.named parts parts' (List.singleton_inj.1 cores)
  refine Descriptor.alike_of_spells (h.spells_good good found spells)
    (h.spells_good good' found' spells') alike fun marked => ?_
  rwa [← alike.isMarked, marked, Bool.and_true, Bool.and_true] at marks

/-- What intersections take over from types that they unfold into, and what such types that are alike
have in common, intersections of one name have in common. -/
theorem of_texts {K : TypeId → Prop}
    (unfold : ∀ type, K type ↔
      ∃ target, arena.Unfolds Descriptor.conjuncts? type target ∧ K target)
    (alike : ∀ (name name' : TypeId → String → Prop) (descriptor descriptor' : Descriptor)
      (type type' : TypeId), Descriptor.Alike name name' false false descriptor descriptor' →
        arena.lookup? type = some descriptor → arena.lookup? type' = some descriptor' →
          K type → K type')
    (good : Good (.ofType type exact)) (good' : Good (.ofType type' exact'))
    {members members' : List TypeId} (found : arena.lookup? type = some (.intersection members))
    (found' : arena.lookup? type' = some (.intersection members')) {texts : List String}
    (reads : arena.Texts Descriptor.conjuncts? formStops false type texts)
    (reads' : arena.Texts Descriptor.conjuncts? formStops false type' texts) (here : K type) :
    K type' := by
  obtain ⟨target, unfolds, there⟩ := (unfold type).1 here
  obtain ⟨text, inside, named⟩ := reads.complete target unfolds
  obtain ⟨target', unfolds', named'⟩ := reads'.sound text inside
  obtain ⟨good, single⟩ := h.of_unfolds_intersection good found unfolds
  obtain ⟨good', single'⟩ := h.of_unfolds_intersection good' found' unfolds'
  obtain ⟨descriptor, known, -⟩ := id single
  obtain ⟨descriptor', known', -⟩ := id single'
  have same := h.alike good good' known known' single single' named named'
  exact (unfold type').2 ⟨target', unfolds', alike _ _ _ _ _ _ same known known' there⟩

end Arena.Legible

/-! ## The values of all types of one name -/

namespace Arena

/-- Some type without members has the same name and the value. -/
def HasTwin (arena : Arena) (Good : Goal → Prop) (type : TypeId) (exact : Bool) (v : Value) : Prop :=
  ∃ twin exact' name, Good (.ofType twin exact') ∧ arena.IsSingle twin ∧
    arena.HasName exact type name ∧ arena.HasName exact' twin name ∧ arena.Largest twin exact' v

/-- The value is admitted by twins of what the type unfolds into; an intersection says itself which
keys it allows. -/
inductive Mirrors (arena : Arena) (Good : Goal → Prop) (type : TypeId) (exact : Bool) (v : Value) :
    Prop
  | single : (∀ members, arena.lookup? type ≠ some (.intersection members)) →
      arena.HasTwin Good type exact v → Mirrors arena Good type exact v
  | intersection {members : List TypeId} : arena.lookup? type = some (.intersection members) →
      (∃ name, arena.HasName exact type name) →
      (∀ target, arena.Unfolds Descriptor.conjuncts? type target →
        arena.HasTwin Good target false v) →
      (exact = true → ¬ arena.OpenKeys type → v.IsObject → ∀ key ∈ v.keys, arena.HasKey key type) →
        Mirrors arena Good type exact v

/-- The values that a type has, or that a type of the same name has. -/
def Mirrored (arena : Arena) (Good : Goal → Prop) (type : TypeId) (exact : Bool) (v : Value) : Prop :=
  arena.Largest type exact v ∨ Good (.ofType type exact) ∧
    ∃ target, arena.Unfolds Descriptor.alternatives? type target ∧
      arena.Mirrors Good target exact v

namespace Legible

variable {Good : Goal → Prop} (h : arena.Legible Good) {type type' : TypeId} {exact exact' : Bool}
  {name : String} {v : Value}
include h

omit h in
/-- The members of an intersection that has a name have names. -/
theorem exists_member_name (named : arena.HasName exact type name) {members : List TypeId}
    (found : arena.lookup? type = some (.intersection members)) {member : TypeId}
    (inside : member ∈ members) : ∃ name, arena.HasName false member name := by
  obtain ⟨depth, made⟩ := named
  obtain ⟨below, descriptor, rfl, found', made⟩ := nameWith_of_within made
  obtain rfl := Option.some.inj (found.symm.trans found')
  obtain ⟨text, here, -⟩ := bind_eq_ok.1 made
  obtain ⟨names, each, -⟩ := bind_eq_ok.1 here
  obtain ⟨name, -, made⟩ := exists_right_of_forall₂ (mapM_eq_ok.1 each) inside
  exact ⟨name, below, made⟩

omit h in
theorem exists_lookup (named : arena.HasName exact type name) :
    ∃ descriptor, arena.lookup? type = some descriptor := by
  obtain ⟨depth, made⟩ := named
  obtain ⟨_, descriptor, -, found, -⟩ := nameWith_of_within made
  exact ⟨descriptor, found⟩

/-- What a type of the same name has is mirrored, for types that are not unions. -/
theorem mirrors (good : Good (.ofType type exact)) (good' : Good (.ofType type' exact'))
    (notUnion : ∀ members, arena.lookup? type ≠ some (.union members))
    (notUnion' : ∀ members, arena.lookup? type' ≠ some (.union members))
    (named : arena.HasName exact type name) (named' : arena.HasName exact' type' name)
    (admits : arena.Largest type' exact' v) : arena.Mirrors Good type exact v := by
  obtain ⟨marked, texts, reads, written⟩ := h.exists_reads good notUnion named
  obtain ⟨marked', texts', reads', written'⟩ := h.exists_reads good' notUnion' named'
  obtain ⟨marks, same⟩ := marked_injective reads.some reads'.some (reads.pieces h.named)
    (reads'.pieces h.named) (written.symm.trans written')
  have single {type : TypeId} {descriptor : Descriptor}
      (notUnion : ∀ members, arena.lookup? type ≠ some (.union members))
      (found : arena.lookup? type = some descriptor) (kind : descriptor.conjuncts? = none) :
      arena.IsSingle type := by
    refine ⟨descriptor, found, ?_, kind⟩
    cases descriptor with
    | union members => exact absurd found (notUnion members)
    | _ => rfl
  -- an intersection of one piece is not checked for superfluous keys, and so it has no mark
  have unmarked {exact : Bool} (long : exact = true → 2 ≤ 1) : exact = false := by
    cases exact with
    | false => rfl
    | true => exact absurd (long rfl) (by decide)
  cases reads with
  | @form descriptor form found kind =>
    have notIntersection (members : List TypeId) :
        arena.lookup? type ≠ some (.intersection members) := by
      intro intersection
      obtain rfl := Option.some.inj (found.symm.trans intersection)
      cases kind
    refine .single notIntersection ?_
    cases reads' with
    | form found' kind' => exact ⟨type', exact', name, good', single notUnion' found' kind', named, named', admits⟩
    | @intersection members' texts' found' conjuncts' long' =>
      obtain rfl := same
      obtain rfl := unmarked long'
      obtain ⟨twin, unfolds, twinNamed⟩ := conjuncts'.sound _ (List.mem_singleton_self _)
      obtain ⟨good', single'⟩ := h.of_unfolds_intersection good' found' unfolds
      rw [String.intercalate_singleton] at written'
      obtain rfl : name = form.core arena := by simpa [exactMark] using written'
      exact ⟨twin, false, _, good', single', named, twinNamed,
        largest_of_unfolds_intersection found' unfolds admits⟩
  | @intersection members texts found conjuncts long =>
    cases reads' with
    | @form descriptor' form' found' kind' =>
      obtain rfl := same
      obtain rfl := unmarked long
      refine .intersection found ⟨name, named⟩ (fun target unfolds => ?_) (by simp)
      obtain ⟨text, inside, targetNamed⟩ := conjuncts.complete target unfolds
      obtain rfl := List.mem_singleton.1 inside
      rw [String.intercalate_singleton] at written
      obtain rfl : name = form'.core arena := by simpa [exactMark] using written
      exact ⟨type', exact', _, good', single notUnion' found' kind', targetNamed, named', admits⟩
    | @intersection members' texts' found' conjuncts' long' =>
      obtain rfl := same
      obtain rfl := marks
      refine .intersection found ⟨name, named⟩ (fun target unfolds => ?_)
        fun isExact closed object key own => ?_
      · obtain ⟨text, inside, targetNamed⟩ := conjuncts.complete target unfolds
        obtain ⟨twin, unfolds', twinNamed⟩ := conjuncts'.sound text inside
        obtain ⟨good', single'⟩ := h.of_unfolds_intersection good' found' unfolds'
        exact ⟨twin, false, text, good', single', targetNamed, twinNamed,
          largest_of_unfolds_intersection found' unfolds' admits⟩
      · have closed' : ¬ arena.OpenKeys type' := fun isOpen => closed
          (h.of_texts (fun _ => openKeys_iff_unfolds)
            (fun _ _ _ _ _ _ same found found' => (same.openKeys found found').1) good' good found'
            found conjuncts' conjuncts isOpen)
        exact h.of_texts (fun _ => hasKey_iff_unfolds)
          (fun _ _ _ _ _ _ same found found' => (same.hasKey found found').1) good' good found'
          found conjuncts' conjuncts
          ((admits_of_largest admits found').2 isExact closed' object key own)

/-- What a type of the same name has is mirrored. -/
theorem mirrored (good : Good (.ofType type exact)) (good' : Good (.ofType type' exact'))
    (named : arena.HasName exact type name) (named' : arena.HasName exact' type' name)
    (admits : arena.Largest type' exact' v) : arena.Mirrored Good type exact v := by
  obtain ⟨texts, reads, written⟩ := h.exists_alternatives good named
  obtain ⟨texts', reads', written'⟩ := h.exists_alternatives good' named'
  obtain rfl := Text.intercalate_injective isSeparator_bar reads.pieces reads'.pieces
    (written.symm.trans written')
  obtain ⟨target', unfolds', there⟩ := exists_alternative_admits named' admits
  obtain ⟨text, inside, named'⟩ := reads'.complete target' unfolds'
  obtain ⟨target, unfolds, named⟩ := reads.sound text inside
  obtain ⟨good, notUnion⟩ := h.of_unfolds_alternatives good unfolds
  obtain ⟨good', notUnion'⟩ := h.of_unfolds_alternatives good' unfolds'
  exact .inr ⟨‹_›, target, unfolds, h.mirrors good good' notUnion notUnion' named named' there⟩

/-- The mirrored values satisfy the type equations. -/
theorem admits_of_mirrored (here : arena.Mirrored Good type exact v) :
    arena.Admits (arena.Mirrored Good) type exact v := by
  rcases here with admits | ⟨good, target, unfolds, mirrors⟩
  · exact admits_mono (fun _ _ _ => .inl) ((arena.largest_solves type exact v).1 admits)
  cases unfolds with
  | @part _ member _ descriptor members found parts inside below =>
    obtain rfl : descriptor = .union members := by
      cases descriptor <;> cases parts
      rfl
    exact ⟨_, found, member, inside,
      .inr ⟨h.closed _ _ good (.union found inside), target, below, mirrors⟩⟩
  | @self _ descriptor found notUnion =>
    cases mirrors with
    | single notIntersection twins =>
      obtain ⟨twin, exact', name, good', single', named, named', admits⟩ := twins
      have single : arena.IsSingle type := by
        refine ⟨descriptor, found, notUnion, ?_⟩
        cases descriptor with
        | intersection members => exact absurd found (notIntersection members)
        | _ => rfl
      obtain ⟨descriptor', found', -⟩ := id single'
      have alike := h.alike good good' found found' single single' named named'
      refine ⟨descriptor, found, alike.admits (fun _ _ => .inl) ?_
        (admits_of_largest admits found')⟩
      rintro child child' ⟨part, ⟨named, good⟩, named', good'⟩ w there
      exact h.mirrored good good' named named' there
    | @intersection members found' name twins keys =>
      obtain rfl := Option.some.inj (found.symm.trans found')
      obtain ⟨_, named⟩ := name
      refine ⟨_, found, fun member inside => ?_, keys⟩
      obtain ⟨name, named⟩ := exists_member_name named found inside
      obtain ⟨descriptor, there⟩ := exists_lookup named
      have notUnion : descriptor.alternatives? = none := by
        cases descriptor with
        | union inner => exact absurd there ((h.legible _ _ good _ found).2.1 member inside inner)
        | _ => rfl
      refine .inr ⟨h.closed _ _ good (.intersection found inside), member, .self there notUnion, ?_⟩
      cases kind : descriptor.conjuncts? with
      | none =>
        refine .single (fun inner intersection => ?_)
          (twins member (.part found rfl inside (.self there kind)))
        obtain rfl := Option.some.inj (there.symm.trans intersection)
        cases kind
      | some inner =>
        obtain rfl : descriptor = .intersection inner := by
          cases descriptor <;> cases kind
          rfl
        exact .intersection there ⟨name, named⟩
          (fun target unfolds => twins target (.part found rfl inside unfolds)) (by simp)

/-- Types of one name have the same values. -/
theorem largest_iff (good : Good (.ofType type exact)) (good' : Good (.ofType type' exact'))
    (named : arena.HasName exact type name) (named' : arena.HasName exact' type' name) (v : Value) :
    arena.Largest type exact v ↔ arena.Largest type' exact' v := by
  constructor
  · intro admits
    exact ⟨_, fun _ _ _ => h.admits_of_mirrored, h.mirrored good' good named' named admits⟩
  · intro admits
    exact ⟨_, fun _ _ _ => h.admits_of_mirrored, h.mirrored good good' named named' admits⟩

end Legible

end Arena

end ShapeCheck
