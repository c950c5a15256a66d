import ShapeCheck.Proofs.Narrowing.Subjects

set_option autoImplicit false

/-! # Names that subjects share

Subjects that are alike have one name, also where one is checked for superfluous keys and the other one is
not, since then that makes no difference. A name that is found for a subject is that of a subject which
bears it as its own. The predicates of some subjects accept everything by themselves: those that look at all
items of an array, or at all values of an object, do not call them.

Main facts: `Subject.Bears.unique`, `Subject.Bears.exists_own` and `Subject.Alike.acceptsAll_iff`.
-/

namespace ShapeCheck

variable {arena : Arena}

/-! ## Types without marks -/

namespace Arena

/-- A marked parameter stands for a marked type, and the other way round. -/
theorem IsMarked.of_stands {s visible : Substitution} {type target : TypeId} {id : ParameterId}
    (found : arena.lookup? type = some (.parameter id)) (stands : s.resolve arena id = .ok (target, visible))
    (marked : arena.IsMarked (visible, target)) : arena.IsMarked (s, type) := by
  have whole := standsFor_of_resolveWithin found stands
  cases marked with
  | here stands' found' marked =>
    rw [← StandsFor.unique (.itself whole.plain) stands'] at found'
    exact .here whole found' marked
  | part stands' found' inside below =>
    rw [← StandsFor.unique (.itself whole.plain) stands'] at found' below
    exact .part whole found' inside below

theorem mapM_eq_of_forall {α β : Type} {f g : α → Except CompileError β} {items : List α}
    (same : ∀ a ∈ items, f a = g a) : items.mapM f = items.mapM g := by
  induction items with
  | nil => rfl
  | cons a rest ih =>
    rw [List.mapM_cons, List.mapM_cons, same a List.mem_cons_self,
      ih fun b inside => same b (List.mem_cons_of_mem _ inside)]

/-- Where the check for superfluous keys makes no difference, it makes none for the name. -/
theorem typeNameWithin_of_not_isMarked {s : Substitution} {type : TypeId}
    (unmarked : ¬ arena.IsMarked (s, type)) (depth : Nat) (exact exact' : Bool) :
    typeNameWithin arena depth s exact type = typeNameWithin arena depth s exact' type := by
  induction depth generalizing s type with
  | zero => rfl
  | succ depth ih =>
    simp only [typeNameWithin]
    cases known : arena.lookup type with
    | error e => rfl
    | ok descriptor =>
      have found := Arena.lookup_eq_ok.1 known
      show descriptor.nameWith arena _ s exact = descriptor.nameWith arena _ s exact'
      have part (plain : ∀ id, descriptor ≠ .parameter id) {part : TypeId}
          (inside : part ∈ descriptor.children) :
          typeNameWithin arena depth s exact part = typeNameWithin arena depth s exact' part := by
        refine ih fun below => unmarked (.part (.itself fun id parameter => ?_) found inside below)
        exact plain id (Option.some.inj (found.symm.trans parameter))
      cases descriptor with
      | parameter id =>
        simp only [Descriptor.nameWith]
        cases resolved : s.resolve arena id with
        | error e => rfl
        | ok stands => exact ih fun marked => unmarked (.of_stands found resolved marked)
      | array element => simp only [Descriptor.nameWith, part (by rintro _ ⟨⟩) List.mem_cons_self]
      | tuple elements =>
        simp only [Descriptor.nameWith]
        rw [mapM_eq_of_forall fun element inside => ?_]
        simp only [TupleElement.nameWith, part (by rintro _ ⟨⟩) (List.mem_map_of_mem inside)]
      | union members =>
        simp only [Descriptor.nameWith, membersNameWith]
        have each : ∀ member ∈ members, _ := fun member inside => part (by rintro _ ⟨⟩) inside
        rw [mapM_eq_of_forall each]
      | object | intersection | reference | indexAccess | keyof =>
        refine absurd (.here (.itself fun id parameter => ?_) found rfl) unmarked
        cases found.symm.trans parameter
      | _ => rfl

end Arena

/-! ## Names of subjects that are alike -/

/-- The predicate of the descriptor accepts everything by itself. -/
def Descriptor.acceptsAll : Descriptor → Bool
  | .keyword .any | .keyword .unknown | .union [] => true
  | _ => false

namespace Subject

/-- The predicate of the subject accepts everything by itself. -/
def AcceptsAll (arena : Arena) : Subject → Prop
  | .ofType _ a => ∃ descriptor, arena.lookup? a.2 = some descriptor ∧ descriptor.acceptsAll = true
  | _ => False

theorem Bears.of_not_isMarked {own exact : Bool} {a : Reading} {name : String}
    (h : Bears arena own (.ofType exact a) name) (unmarked : ¬ arena.IsMarked a) (exact' : Bool) :
    Bears arena own (.ofType exact' a) name := by
  generalize same : Subject.ofType exact a = subject at h
  induction h generalizing a with
  | @type exact s type descriptor depth name found plain spelled =>
    cases same
    rw [Arena.typeNameWithin_of_not_isMarked unmarked depth exact exact'] at spelled
    exact .type found plain spelled
  | parameter found stands below ih =>
    cases same
    exact .parameter found stands (ih (fun marked => unmarked (.of_stands found stands marked)) rfl)
  | single found | several found =>
    cases same
    refine absurd (.here (.itself fun id parameter => ?_) found rfl) unmarked
    cases found.symm.trans parameter
  | optional | keySet => cases same

section
variable (number : arena.lookup? (.ofKeyword .number) = some (.keyword .number))
include number

/-- Subjects that are alike have the same name. -/
theorem Bears.unique {own own' : Bool} {subject subject' : Subject} {name name' : String}
    (h : Bears arena own subject name) (alike : subject.Alike arena subject')
    (h' : Bears arena own' subject' name') : name = name' := by
  have types {own own' exact exact' : Bool} {a a' : Reading} {name name' : String}
      (h : Bears arena own (.ofType exact a) name) (alike : arena.Alike a a')
      (same : exact = exact' ∨ ¬ arena.IsMarked a) (h' : Bears arena own' (.ofType exact' a') name') :
      name = name' := by
    rcases same with rfl | unmarked
    · exact h.unique_of_twins number (.ofType alike) h'
    · exact (h.of_not_isMarked unmarked exact').unique_of_twins number (.ofType alike) h'
  cases subject <;> cases subject' <;> first | exact alike.elim | skip
  · exact types h alike.1 alike.2 h'
  · cases h with
    | optional below =>
      cases h' with
      | optional below' => rw [types below alike.1 alike.2 below']
  · obtain rfl := alike
    exact h.unique_of_twins number (.keySet _) h'

end

/-- A name that is found for a subject is one that another one bears, which is built for its sake. -/
theorem Bears.exists_own {own : Bool} {subject : Subject} {name : String} (h : Bears arena own subject name) :
    ∃ other, IsBuilt arena subject other ∧ Bears arena true other name := by
  induction h with
  | type found plain spelled => exact ⟨_, .refl, .type found plain spelled⟩
  | parameter found stands _ ih =>
    obtain ⟨other, built, bears⟩ := ih
    exact ⟨other, .head (.parameter found stands) built, bears⟩
  | single found chosen filled _ ih =>
    obtain ⟨choice, inside⟩ := List.exists_mem_of_ne_nil _ filled.flatten_ne_nil
    obtain ⟨other, built, bears⟩ := ih choice inside
    exact ⟨other, .head (.choice found chosen inside) built, bears⟩
  | several found chosen filled each inside inside' apart spelled =>
    exact ⟨_, .refl, .several found chosen filled each inside inside' apart spelled⟩
  | optional below => exact ⟨_, .refl, .optional below⟩
  | keySet keys => exact ⟨_, .refl, .keySet keys⟩

/-- What has a name of its own is no parameter. -/
theorem Bears.not_parameter {exact : Bool} {a : Reading} {name : String}
    (h : Bears arena true (.ofType exact a) name) (id : ParameterId) :
    arena.lookup? a.2 ≠ some (.parameter id) := by
  intro parameter
  cases h with
  | type found plain =>
    cases found.symm.trans parameter
    cases plain
  | several found => cases found.symm.trans parameter

/-- Of two subjects that are alike and have names of their own, both accept everything by themselves or none
does. -/
theorem Alike.acceptsAll_iff {subject subject' : Subject} {name name' : String}
    (alike : subject.Alike arena subject') (h : Bears arena true subject name)
    (h' : Bears arena true subject' name') : subject.AcceptsAll arena ↔ subject'.AcceptsAll arena := by
  cases subject <;> cases subject' <;> first | exact alike.elim | exact Iff.rfl | skip
  rename_i a _ a'
  show (∃ descriptor, arena.lookup? a.2 = some descriptor ∧ descriptor.acceptsAll = true) ↔
    ∃ descriptor, arena.lookup? a'.2 = some descriptor ∧ descriptor.acceptsAll = true
  have forms := alike.1.forms h.not_parameter h'.not_parameter
  generalize arena.lookup? a.2 = found at forms
  generalize arena.lookup? a'.2 = found' at forms
  cases forms with
  | none => exact Iff.rfl
  | some pair =>
    simp only [Option.some.injEq, exists_eq_left']
    cases pair with
    | union members => cases members <;> exact Iff.rfl
    | _ => exact Iff.rfl

end Subject

end ShapeCheck
