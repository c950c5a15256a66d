import ShapeCheck.Proofs.Meaning.Strategies
import ShapeCheck.Proofs.Semantics.Equations

set_option autoImplicit false

/-! # What names mean in general

In a compilation where subjects are told apart, a name means the values of the subjects that bear it: all
of them have the same values. This holds of names that are registered for a subject, and also of those
under which an access or a parameter is found.

Main facts: `Subject.Alike.contains_iff` and `Subject.stands`.
-/

namespace ShapeCheck

/-! ## Types without marks -/

namespace Arena

variable {arena : Arena} {exact : Bool} {a : Reading} {v : Value}

/-- Where the check for superfluous keys makes no difference, a type has the same values with and without
it. -/
theorem Contains.of_not_isMarked (h : arena.Contains exact a v) (unmarked : ¬ arena.IsMarked a)
    (exact' : Bool) : arena.Contains exact' a v := by
  refine ⟨fun exact a v => arena.Contains exact a v ∨
    ¬ arena.IsMarked a ∧ ∃ exact', arena.Contains exact' a v, ?_, .inr ⟨unmarked, exact, h⟩⟩
  rintro exact a v (here | ⟨unmarked, exact', here⟩)
  · refine equation_transfer (fun exact exact' a b v alike weaker there => ?_) id
      (contains_iff.1 here) (.refl arena a)
    exact .inl (contains_passes arena exact exact' a b v alike weaker there)
  · obtain ⟨b, descriptor, stands, found, fits⟩ := contains_iff.1 here
    refine ⟨b, descriptor, stands, found, ?_⟩
    have plain : descriptor.isMarked = false := by
      by_contra marked
      exact unmarked (.here stands found (by simpa using marked))
    have part {part : TypeId} (inside : part ∈ descriptor.children) {v : Value}
        (there : arena.Contains exact' (b.1, part) v) : arena.Contains exact (b.1, part) v ∨
          ¬ arena.IsMarked (b.1, part) ∧ ∃ exact', arena.Contains exact' (b.1, part) v :=
      .inr ⟨fun below => unmarked (.part stands found inside below), exact', there⟩
    cases descriptor with
    | array element => exact ⟨fits.1, fun i small => part List.mem_cons_self (fits.2 i small)⟩
    | tuple elements =>
      refine ⟨fits.isArray, fits.least, fits.most, fun position element listed => ?_⟩
      refine (fits.elements position element listed).imp_right (part ?_)
      exact List.mem_map_of_mem (List.mem_of_getElem? listed)
    | union members =>
      exact fits.imp_right fun ⟨member, inside, there⟩ => ⟨member, inside, part inside there⟩
    | object | intersection | reference | indexAccess | keyof => cases plain
    | parameter => exact absurd found (stands.plain _)
    | _ => exact fits

end Arena

/-! ## Subjects -/

namespace Subject

/-- The values that a predicate for the subject has to accept. -/
def Contains (arena : Arena) (v : Value) : Subject → Prop
  | .ofType exact a => arena.Contains exact a v
  | .optional exact a => v = .undefined ∨ arena.Contains exact a v
  | .keySet keys => v.IsObject → ∀ key ∈ v.keys, key ∈ keys

variable {arena : Arena}

theorem contains_ofChoice {exact : Bool} {choice : Choice} {v : Value} :
    (ofChoice exact choice).Contains arena v ↔ choice.Fits arena.Contains exact v := by
  unfold ofChoice Choice.Fits
  split
  · rename_i optional
    simp [Contains, optional]
  · rename_i required
    simp [Contains, required]

theorem contains_iff_of_alike {exact exact' : Bool} {a a' : Reading} (alike : arena.Alike a a')
    (same : exact = exact' ∨ ¬ arena.IsMarked a) (v : Value) :
    arena.Contains exact a v ↔ arena.Contains exact' a' v := by
  rcases same with rfl | unmarked
  · exact ⟨fun h => h.of_alike alike, fun h => h.of_alike alike.symm⟩
  · exact ⟨fun h => (h.of_not_isMarked unmarked exact').of_alike alike,
      fun h => (h.of_alike alike.symm).of_not_isMarked unmarked exact⟩

/-- Subjects that are alike have the same values. -/
theorem Alike.contains_iff {subject subject' : Subject} (h : subject.Alike arena subject') (v : Value) :
    subject.Contains arena v ↔ subject'.Contains arena v := by
  cases subject <;> cases subject' <;> first | exact h.elim | skip
  · exact contains_iff_of_alike h.1 h.2 v
  · exact or_congr_right (contains_iff_of_alike h.1 h.2 v)
  · obtain rfl := h
    rfl

/-- Subjects that are alike have the same values. -/
theorem Twins.contains_iff {subject subject' : Subject} (h : subject.Twins arena subject') (v : Value) :
    subject.Contains arena v ↔ subject'.Contains arena v := by
  cases h with
  | ofType alike => exact contains_iff_of_alike alike (.inl rfl) v
  | optional alike => exact or_congr_right (contains_iff_of_alike alike (.inl rfl) v)
  | keySet keys => rfl

/-- The values of an access are those of the members that it selects. -/
theorem contains_access_iff (number : arena.lookup? (.ofKeyword .number) = some (.keyword .number))
    {exact : Bool} {s : Substitution} {type whole index : TypeId} {options : CompileOptions} {depth : Nat}
    {lists : List (List Choice)} (found : arena.lookup? type = some (.indexAccess whole index))
    (chosen : arena.choices options depth s whole index = .ok lists) (v : Value) :
    arena.Contains exact (s, type) v ↔
      ∃ choice ∈ lists.flatten, (ofChoice exact choice).Contains arena v := by
  simp only [contains_ofChoice]
  have here : arena.Chooses (s, whole) (s, index) lists.flatten :=
    ⟨s, whole, index, options, depth, lists, .refl arena _, .refl arena _, chosen, rfl⟩
  rw [Arena.contains_iff]
  constructor
  · rintro ⟨b, descriptor, stands, found', fits⟩
    cases stands with
    | next parameter => cases found.symm.trans parameter
    | itself =>
      cases found.symm.trans found'
      obtain ⟨choices, chooses, choice, inside, fits⟩ := fits
      obtain ⟨choice', inside', alike⟩ := exists_right_of_forall₂ (chooses.related number here) inside
      exact ⟨choice', inside', fits.transfer (Arena.contains_passes arena) id alike⟩
  · rintro ⟨choice, inside, fits⟩
    refine ⟨_, _, .itself fun id parameter => ?_, found, lists.flatten, here, choice, inside, fits⟩
    cases found.symm.trans parameter

/-! ## Meanings -/

/-- Some subject that the name is registered for has the value. -/
def Means (arena : Arena) (root : Subject) (name : String) (v : Value) : Prop :=
  ∃ subject, IsBuilt arena root subject ∧ Bears arena true subject name ∧ subject.Contains arena v

/-- A name means the values of every subject that bears it. -/
theorem stands (number : arena.lookup? (.ofKeyword .number) = some (.keyword .number)) {root : Subject}
    (apart : ToldApart arena root) {subject : Subject} (built : IsBuilt arena root subject) {own : Bool}
    {name : String} (bears : Bears arena own subject name) :
    Stands (Means arena root) (fun v => subject.Contains arena v) name := by
  intro v
  have registered {subject : Subject} (built : IsBuilt arena root subject)
      (bears : Bears arena true subject name) : Means arena root name v ↔ subject.Contains arena v := by
    refine ⟨fun ⟨other, built', bears', contains⟩ => ?_, fun contains => ⟨subject, built, bears, contains⟩⟩
    exact ((apart other subject name built' built bears' bears).contains_iff v).1 contains
  induction bears with
  | type found plain spelled => exact registered built (.type found plain spelled)
  | several found chosen filled each inside inside' different spelled =>
    exact registered built (.several found chosen filled each inside inside' different spelled)
  | optional below => exact registered built (.optional below)
  | keySet keys => exact registered built (.keySet keys)
  | parameter found resolved below ih =>
    refine (ih (.tail built (.parameter found resolved)) registered).trans ?_
    exact (contains_iff_of_alike (Arena.standsFor_of_resolveWithin found resolved).alike (.inl rfl) v).symm
  | single found chosen filled each ih =>
    have same (choice) (inside : choice ∈ _) :=
      ih choice inside (.tail built (.choice found chosen inside)) registered
    refine .trans ?_ (contains_access_iff number found chosen v).symm
    obtain ⟨choice, inside⟩ := List.exists_mem_of_ne_nil _ filled.flatten_ne_nil
    refine ⟨fun means => ⟨choice, inside, (same choice inside).1 means⟩, ?_⟩
    rintro ⟨other, inside', contains⟩
    exact (same other inside').2 contains

end Subject

end ShapeCheck
