import ShapeCheck.Descriptor.Combination
import ShapeCheck.Proofs.Documents.Arenas
import ShapeCheck.Proofs.Repetitions

set_option autoImplicit false

/-! # Unions and intersections as normal forms

A union of unions has the leaves of its members as its own members, however deep these are nested, and each
of them once. So how members are grouped does not matter: to combine some of them first and put the result
in their place gives the same handle. `Arena.FlattensTo` says what the leaves are, apart from how they are
computed.

A group has to have a leaf. Descriptors that hold no member at all can be entered as they are; a group of
such descriptors is combined to `never` or `unknown`, and this is a member like any other.

Main fact: `Arena.combine_grouped`.
-/

namespace ShapeCheck

namespace Arena

variable {a b : Arena} {c : Combination} {members members' leaves leaves' : List TypeId}

/-! ## Leaves -/

/-- The members of a type, if it is one of this kind. -/
def membersOf? (a : Arena) (c : Combination) (type : TypeId) : Option (List TypeId) :=
  (a.lookup? type).bind c.members?

/-- The leaves of some members, from left to right: a member of this kind stands for its own members. -/
inductive FlattensTo (a : Arena) (c : Combination) : List TypeId → List TypeId → Prop
  | nil : FlattensTo a c [] []
  | leaf {member : TypeId} {members leaves : List TypeId} (isLeaf : a.membersOf? c member = none)
      (rest : FlattensTo a c members leaves) : FlattensTo a c (member :: members) (member :: leaves)
  | nested {member : TypeId} {inner members leaves leaves' : List TypeId}
      (isNested : a.membersOf? c member = some inner) (first : FlattensTo a c inner leaves)
      (rest : FlattensTo a c members leaves') : FlattensTo a c (member :: members) (leaves ++ leaves')

namespace FlattensTo

theorem append (h : a.FlattensTo c members leaves) (h' : a.FlattensTo c members' leaves') :
    a.FlattensTo c (members ++ members') (leaves ++ leaves') := by
  induction h with
  | nil => exact h'
  | leaf isLeaf _ ih => exact .leaf isLeaf ih
  | nested isNested first _ _ ih =>
    rw [List.cons_append, List.append_assoc]
    exact .nested isNested first ih

theorem of_leaves (h : ∀ member ∈ members, a.membersOf? c member = none) :
    a.FlattensTo c members members := by
  induction members with
  | nil => exact .nil
  | cons member rest ih =>
    exact .leaf (h member List.mem_cons_self) (ih fun other later => h other (List.mem_cons_of_mem _ later))

theorem isLeaf (h : a.FlattensTo c members leaves) : ∀ leaf ∈ leaves, a.membersOf? c leaf = none := by
  induction h with
  | nil => exact nofun
  | leaf isLeaf _ ih =>
    rintro leaf (_ | ⟨_, later⟩)
    · exact isLeaf
    · exact ih leaf later
  | nested _ _ _ first rest =>
    intro leaf inside
    exact (List.mem_append.1 inside).elim (first leaf) (rest leaf)

theorem unique (h : a.FlattensTo c members leaves) (h' : a.FlattensTo c members leaves') :
    leaves = leaves' := by
  induction h generalizing leaves' with
  | nil =>
    cases h'
    rfl
  | leaf isLeaf _ ih =>
    cases h' with
    | leaf _ rest => rw [ih rest]
    | nested isNested => cases isLeaf.symm.trans isNested
  | nested isNested _ _ first rest =>
    cases h' with
    | leaf isLeaf => cases isLeaf.symm.trans isNested
    | nested isNested' first' rest' =>
      cases isNested.symm.trans isNested'
      rw [first first', rest rest']

end FlattensTo

/-- The members of a type were entered before it. -/
theorem IsOrdered.index_lt_of_membersOf? (ordered : a.IsOrdered) {type : TypeId}
    (isNested : a.membersOf? c type = some members) :
    ∀ member ∈ members, member.index < type.index := by
  obtain ⟨descriptor, found, isMembers⟩ := Option.bind_eq_some_iff.1 isNested
  obtain rfl := Combination.members?_eq_some_iff.1 isMembers
  intro member inside
  exact ordered.child_lt found (by rwa [Combination.children_descriptor])

/-- As many rounds as the handles ask for reach all leaves. -/
theorem flattensTo_leaves (ordered : a.IsOrdered) (depth : Nat) {members : List TypeId}
    (enough : ∀ member ∈ members, member.index < depth) :
    a.FlattensTo c members (a.leaves c.members? depth members) := by
  induction depth generalizing members with
  | zero =>
    cases members with
    | nil => exact .nil
    | cons member _ => exact absurd (enough member List.mem_cons_self) (Nat.not_lt_zero _)
  | succ depth round =>
    unfold Arena.leaves
    induction members with
    | nil => exact .nil
    | cons member rest ih =>
      have others := ih fun other later => enough other (List.mem_cons_of_mem _ later)
      rw [List.flatMap_cons]
      cases isNested : (a.lookup? member).bind c.members? with
      | none => exact .leaf isNested others
      | some inner =>
        refine .nested isNested (round fun part inside => ?_) others
        have smaller := ordered.index_lt_of_membersOf? isNested part inside
        have bound := enough member List.mem_cons_self
        omega

theorem exists_flattensTo (ordered : a.IsOrdered)
    (known : ∀ member ∈ members, member.index < a.descriptors.size) :
    ∃ leaves, a.FlattensTo c members leaves :=
  ⟨_, flattensTo_leaves ordered _ known⟩

theorem FlattensTo.flatten_eq (h : a.FlattensTo c members leaves) (ordered : a.IsOrdered)
    (known : ∀ member ∈ members, member.index < a.descriptors.size) :
    a.flatten c.members? members = leaves.eraseDups :=
  congrArg List.eraseDups ((flattensTo_leaves ordered _ known).unique h)

/-! ## Arenas that grow -/

theorem Extends.membersOf?_eq (grown : a.Extends b) {type : TypeId}
    (known : type.index < a.descriptors.size) : b.membersOf? c type = a.membersOf? c type := by
  obtain ⟨descriptor, found⟩ := exists_lookup?_of_lt known
  rw [membersOf?, membersOf?, grown.descriptors _ _ found, found]

/-- What is there keeps its leaves. -/
theorem FlattensTo.extends (h : a.FlattensTo c members leaves) (ordered : a.IsOrdered)
    (grown : a.Extends b) (known : ∀ member ∈ members, member.index < a.descriptors.size) :
    b.FlattensTo c members leaves := by
  induction h with
  | nil => exact .nil
  | leaf isLeaf _ ih =>
    exact .leaf (by rwa [grown.membersOf?_eq (known _ List.mem_cons_self)])
      (ih fun other later => known other (List.mem_cons_of_mem _ later))
  | nested isNested _ _ first rest =>
    have bound := known _ List.mem_cons_self
    refine .nested (by rwa [grown.membersOf?_eq bound]) (first fun part inside => ?_)
      (rest fun other later => known other (List.mem_cons_of_mem _ later))
    exact Nat.lt_trans (ordered.index_lt_of_membersOf? isNested part inside) bound

/-- Leaves are there if the members are. -/
theorem FlattensTo.known (h : a.FlattensTo c members leaves) (ordered : a.IsOrdered)
    (known : ∀ member ∈ members, member.index < a.descriptors.size) :
    ∀ leaf ∈ leaves, leaf.index < a.descriptors.size := by
  induction h with
  | nil => exact nofun
  | leaf _ _ ih =>
    rintro leaf (_ | ⟨_, later⟩)
    · exact known _ List.mem_cons_self
    · exact ih (fun other later => known other (List.mem_cons_of_mem _ later)) leaf later
  | nested isNested _ _ first rest =>
    intro leaf inside
    rcases List.mem_append.1 inside with inside | inside
    · refine first (fun part inside => ?_) leaf inside
      exact Nat.lt_trans (ordered.index_lt_of_membersOf? isNested part inside) (known _ List.mem_cons_self)
    · exact rest (fun other later => known other (List.mem_cons_of_mem _ later)) leaf inside

theorem extends_combine (a : Arena) (c : Combination) (members : List TypeId) :
    a.Extends (a.combine c members).2 := by
  rw [combine_eq]
  split
  · exact .refl a
  · exact .refl a
  · exact extends_intern a _

theorem IsOrdered.combine (ordered : a.IsOrdered)
    (known : ∀ member ∈ members, member.index < a.descriptors.size) :
    (a.combine c members).2.IsOrdered := by
  obtain ⟨leaves, flat⟩ := exists_flattensTo (c := c) ordered known
  rw [combine_eq, flat.flatten_eq ordered known]
  split
  · exact ordered
  · exact ordered
  · refine ordered.intern fun child inside => ?_
    rw [Combination.children_descriptor] at inside
    exact flat.known ordered known child (List.mem_eraseDups.1 inside)

theorem StoresOnce.combine (once : a.StoresOnce) (c : Combination) (members : List TypeId) :
    (a.combine c members).2.StoresOnce := by
  rw [combine_eq]
  split
  · exact once
  · exact once
  · exact once.intern _

/-! ## What combining gives -/

/-- What is made of leaves that are pairwise different: nothing is entered for a single one, and several are
the members of a type of this kind. -/
inductive Combines (a : Arena) (c : Combination) : List TypeId → TypeId → Arena → Prop
  | none : Combines a c [] c.neutral a
  | one (leaf : TypeId) : Combines a c [leaf] leaf a
  | several {leaves : List TypeId} {type : TypeId} {b : Arena} (several : 2 ≤ leaves.length)
      (grown : a.Extends b) (found : b.lookup? type = some (c.descriptor leaves)) :
      Combines a c leaves type b

theorem combines_combine (ordered : a.IsOrdered)
    (known : ∀ member ∈ members, member.index < a.descriptors.size)
    (flat : a.FlattensTo c members leaves) :
    a.Combines c leaves.eraseDups (a.combine c members).1 (a.combine c members).2 := by
  rw [combine_eq, flat.flatten_eq ordered known]
  generalize leaves.eraseDups = different
  match different with
  | [] => exact .none
  | [leaf] => exact .one leaf
  | _ :: _ :: rest =>
    exact .several (by simp) (extends_intern a _) (lookup?_intern a _)

theorem StoresOnce.intern_eq (once : a.StoresOnce) {type : TypeId} {descriptor : Descriptor}
    (found : a.lookup? type = some descriptor) : a.intern descriptor = (type, a) := by
  have same := intern_of_lookup? a descriptor type found
  have there := lookup?_intern a descriptor
  rw [same] at there
  exact Prod.ext (once.eq_of_lookup? there found) same

/-- Combining the same members later gives what it has given before. -/
theorem combine_later (ordered : a.IsOrdered)
    (known : ∀ member ∈ members, member.index < a.descriptors.size)
    (grown : (a.combine c members).2.Extends b) (ordered' : b.IsOrdered) (once' : b.StoresOnce) :
    b.combine c members = ((a.combine c members).1, b) := by
  obtain ⟨leaves, flat⟩ := exists_flattensTo (c := c) ordered known
  have later := (extends_combine a c members).trans grown
  have flat' := flat.extends ordered later known
  have again := flat'.flatten_eq ordered' fun member inside => later.index_lt (known member inside)
  have combined := combines_combine ordered known flat
  rw [combine_eq b, again]
  generalize leaves.eraseDups = different at combined ⊢
  generalize a.combine c members = made at combined grown ⊢
  rcases made with ⟨type, made⟩
  cases combined with
  | none => rfl
  | one leaf => rfl
  | several several _ found =>
    match different with
    | [] => simp at several
    | [_] => simp at several
    | _ :: _ :: _ => exact once'.intern_eq (grown.descriptors _ _ found)

/-- A group of members with a leaf has the leaves of the group. -/
theorem flattensTo_group (ordered : a.IsOrdered)
    (known : ∀ member ∈ members, member.index < a.descriptors.size)
    (flat : a.FlattensTo c members leaves) (hasLeaf : leaves ≠ [])
    (grown : (a.combine c members).2.Extends b) :
    (a.combine c members).1.index < b.descriptors.size ∧
      ∃ grouped, b.FlattensTo c [(a.combine c members).1] grouped ∧
        grouped.eraseDups = leaves.eraseDups := by
  have later := (extends_combine a c members).trans grown
  have isThere (leaf : TypeId) (inside : leaf ∈ leaves.eraseDups) :
      leaf.index < b.descriptors.size ∧ b.membersOf? c leaf = none := by
    have listed := List.mem_eraseDups.1 inside
    have bound := flat.known ordered known leaf listed
    exact ⟨later.index_lt bound, by rw [later.membersOf?_eq bound, flat.isLeaf leaf listed]⟩
  have combined := combines_combine ordered known flat
  suffices h : (a.combine c members).1.index < b.descriptors.size ∧
      b.FlattensTo c [(a.combine c members).1] leaves.eraseDups from
    ⟨h.1, _, h.2, eraseDups_eraseDups leaves⟩
  generalize different : leaves.eraseDups = inner at combined isThere ⊢
  generalize a.combine c members = made at combined grown ⊢
  rcases made with ⟨type, made⟩
  cases combined with
  | none => exact absurd (eq_nil_of_eraseDups different) hasLeaf
  | one =>
    have here := isThere type (List.mem_singleton_self type)
    exact ⟨here.1, .leaf here.2 .nil⟩
  | several _ _ found =>
    have found := grown.descriptors _ _ found
    have isNested : b.membersOf? c type = some inner := by
      rw [membersOf?, found]
      exact Combination.members?_eq_some_iff.2 rfl
    refine ⟨index_lt_of_lookup? found, ?_⟩
    simpa using FlattensTo.nested isNested (.of_leaves fun leaf inside => (isThere leaf inside).2) .nil

/-- What is combined depends on the leaves alone, and not on repetitions among them. -/
theorem combine_congr (ordered : a.IsOrdered)
    (known : ∀ member ∈ members, member.index < a.descriptors.size)
    (known' : ∀ member ∈ members', member.index < a.descriptors.size)
    (flat : a.FlattensTo c members leaves) (flat' : a.FlattensTo c members' leaves')
    (same : leaves.eraseDups = leaves'.eraseDups) : a.combine c members = a.combine c members' := by
  rw [combine_eq, combine_eq, flat.flatten_eq ordered known, flat'.flatten_eq ordered known', same]

/-- A group with a leaf can be combined first. -/
theorem combine_group {before group after : List TypeId} (ordered : a.IsOrdered)
    (known : ∀ member ∈ before ++ group ++ after, member.index < a.descriptors.size)
    (hasLeaf : ¬ a.FlattensTo c group []) (ordered' : b.IsOrdered)
    (grown : (a.combine c group).2.Extends b) :
    b.combine c (before ++ [(a.combine c group).1] ++ after) = b.combine c (before ++ group ++ after) := by
  have later := (extends_combine a c group).trans grown
  have known' := fun member inside => later.index_lt (known member inside)
  simp only [List.mem_append, or_imp, forall_and] at known known'
  obtain ⟨leaves, flat⟩ := exists_flattensTo (c := c) ordered known.1.2
  obtain ⟨first, flatBefore⟩ := exists_flattensTo (c := c) ordered' known'.1.1
  obtain ⟨last, flatAfter⟩ := exists_flattensTo (c := c) ordered' known'.2
  obtain ⟨made, grouped, flatGroup, same⟩ :=
    flattensTo_group ordered known.1.2 flat (fun none => hasLeaf (none ▸ flat)) grown
  refine combine_congr ordered' ?_ ?_
    ((flatBefore.append flatGroup).append flatAfter)
    ((flatBefore.append (flat.extends ordered later known.1.2)).append flatAfter)
    (eraseDups_append_congr (eraseDups_append_congr rfl same) rfl)
  · simp only [List.mem_append, List.mem_singleton, or_imp, forall_and, forall_eq]
    exact ⟨⟨known'.1.1, made⟩, known'.2⟩
  · simpa only [List.mem_append, or_imp, forall_and] using known'

/-- Unions and intersections are normal forms, which do not depend on how their members are grouped.

What is made of some members is given by their leaves, each of which stands once, where it comes first. If
a group of members has a leaf and is combined, then to combine its handle with the members around it gives
the handle and the arena that combining all of them at once gives, and so it is if that is done afterwards
or was done before. -/
theorem combine_grouped (c : Combination) {a : Arena} (ordered : a.IsOrdered) (once : a.StoresOnce) :
    (∀ members : List TypeId, (∀ member ∈ members, member.index < a.descriptors.size) →
      ∃ leaves, a.FlattensTo c members leaves ∧ leaves.eraseDups.Nodup ∧
        (∀ leaf ∈ leaves.eraseDups, (a.combine c members).2.membersOf? c leaf = none) ∧
        a.Combines c leaves.eraseDups (a.combine c members).1 (a.combine c members).2) ∧
    ∀ before group after : List TypeId,
      (∀ member ∈ before ++ group ++ after, member.index < a.descriptors.size) →
      ¬ a.FlattensTo c group [] →
      (∀ grouped nested b d, a.combine c group = (grouped, b) →
        b.combine c (before ++ [grouped] ++ after) = (nested, d) →
        b.combine c (before ++ group ++ after) = (nested, d) ∧
          d.combine c (before ++ group ++ after) = (nested, d)) ∧
      ∀ flat grouped b d, a.combine c (before ++ group ++ after) = (flat, b) →
        b.combine c group = (grouped, d) →
        d.combine c (before ++ [grouped] ++ after) = (flat, d) := by
  refine ⟨fun members known => ?_, fun before group after known hasLeaf => ⟨?_, ?_⟩⟩
  · obtain ⟨leaves, flat⟩ := exists_flattensTo (c := c) ordered known
    refine ⟨leaves, flat, nodup_eraseDups leaves, fun leaf inside => ?_, combines_combine ordered known flat⟩
    have listed := List.mem_eraseDups.1 inside
    rw [(extends_combine a c members).membersOf?_eq (flat.known ordered known leaf listed)]
    exact flat.isLeaf leaf listed
  · intro grouped nested b d isGroup isNested
    have inGroup := fun member inside =>
      known member (List.mem_append_left after (List.mem_append_right before inside))
    have grown := extends_combine a c group
    have ordered' := ordered.combine (c := c) inGroup
    have once' := once.combine c group
    have same := combine_group ordered known hasLeaf ordered' (.refl _)
    rw [isGroup] at grown ordered' once' same
    have isFlat := same.symm.trans isNested
    have known' := fun member inside => grown.index_lt (known member inside)
    have again := combine_later ordered' known' (.refl _) (ordered'.combine known') (once'.combine c _)
    rw [isFlat] at again
    exact ⟨isFlat, again⟩
  · intro flat grouped b d isFlat isGroup
    have ordered' := ordered.combine (c := c) known
    have once' := once.combine c (before ++ group ++ after)
    have grown := extends_combine a c (before ++ group ++ after)
    rw [isFlat] at ordered' once' grown
    have known' := fun member inside => grown.index_lt (known member inside)
    have inGroup := fun member inside =>
      known' member (List.mem_append_left after (List.mem_append_right before inside))
    have later := extends_combine b c group
    have ordered'' := ordered'.combine (c := c) inGroup
    have once'' := once'.combine c group
    -- the leaves that the group has are there before anything is entered
    have hasLeaf' : ¬ b.FlattensTo c group [] := fun none => by
      obtain ⟨leaves, flat⟩ := exists_flattensTo (c := c) ordered fun member inside =>
        known member (List.mem_append_left after (List.mem_append_right before inside))
      have same := (flat.extends ordered grown fun member inside =>
        known member (List.mem_append_left after (List.mem_append_right before inside))).unique none
      exact hasLeaf (same ▸ flat)
    have same := combine_group ordered' known' hasLeaf' ordered'' (.refl _)
    rw [isGroup] at later ordered'' once'' same
    rw [same]
    have again := combine_later (b := d) ordered known (by rwa [isFlat]) ordered'' once''
    rwa [isFlat] at again

/-- Unions that are entered as they are: `string | number`, that or `number`, and no member at all. -/
def nestedUnions : Arena :=
  { initial with
    descriptors := initial.descriptors ++
      #[.union [.ofKeyword .string, .ofKeyword .number], .union [⟨14⟩, .ofKeyword .number], .union []] }

/-- That once `string | number | null` is entered as well. -/
def groupedUnions : Arena :=
  (nestedUnions.intern (.union [.ofKeyword .string, .ofKeyword .number, .ofKeyword .null])).2

theorem combine_grouped_nestedUnions :
    (nestedUnions.IsOrdered ∧ nestedUnions.StoresOnce ∧
      ∀ member ∈ [TypeId.ofKeyword .number] ++ [⟨15⟩, ⟨16⟩, .ofKeyword .null] ++ [⟨14⟩],
        member.index < nestedUnions.descriptors.size) ∧
    ¬ nestedUnions.FlattensTo .union [⟨15⟩, ⟨16⟩, .ofKeyword .null] [] ∧
    nestedUnions.combine .union [⟨15⟩, ⟨16⟩, .ofKeyword .null] = (⟨17⟩, groupedUnions) ∧
    ∃ d, d.lookup? ⟨18⟩ = some (.union [.ofKeyword .number, .ofKeyword .string, .ofKeyword .null]) ∧
      groupedUnions.combine .union [.ofKeyword .number, ⟨17⟩, ⟨14⟩] = (⟨18⟩, d) ∧
      groupedUnions.combine .union [.ofKeyword .number, ⟨15⟩, ⟨16⟩, .ofKeyword .null, ⟨14⟩] = (⟨18⟩, d) ∧
      d.combine .union [.ofKeyword .number, ⟨15⟩, ⟨16⟩, .ofKeyword .null, ⟨14⟩] = (⟨18⟩, d) := by
  have ordered : nestedUnions.IsOrdered := by decide
  have once : nestedUnions.StoresOnce := by
    unfold StoresOnce
    decide
  have known : ∀ member ∈ [TypeId.ofKeyword .number] ++ [⟨15⟩, ⟨16⟩, .ofKeyword .null] ++ [⟨14⟩],
      member.index < nestedUnions.descriptors.size := by decide
  have hasLeaf : ¬ nestedUnions.FlattensTo .union [⟨15⟩, ⟨16⟩, .ofKeyword .null] [] := fun none =>
    absurd (none.flatten_eq ordered (by decide)) (by decide)
  have group : nestedUnions.combine .union [⟨15⟩, ⟨16⟩, .ofKeyword .null] = (⟨17⟩, groupedUnions) := by
    decide +kernel
  have nested : groupedUnions.combine .union [.ofKeyword .number, ⟨17⟩, ⟨14⟩] =
      (⟨18⟩, (groupedUnions.combine .union [.ofKeyword .number, ⟨17⟩, ⟨14⟩]).2) := by
    decide +kernel
  have same := ((combine_grouped .union ordered once).2 _ _ _ known hasLeaf).1 _ _ _ _ group nested
  exact ⟨⟨ordered, once, known⟩, hasLeaf, group, _, by decide +kernel, nested, same⟩

/-- A union without members is `never` when it is combined, and `never` is a member like any other. So a
group that has no leaf must not be combined first. -/
theorem combine_leafless_group :
    (nestedUnions.IsOrdered ∧ nestedUnions.StoresOnce) ∧
    (nestedUnions.lookup? ⟨16⟩ = some (.union []) ∧ nestedUnions.FlattensTo .union [⟨16⟩] []) ∧
    nestedUnions.combine .union [⟨16⟩] = (.ofKeyword .never, nestedUnions) ∧
    (nestedUnions.combine .union [.ofKeyword .string, .ofKeyword .never]).1 ≠
      (nestedUnions.combine .union [.ofKeyword .string, ⟨16⟩]).1 := by
  refine ⟨⟨by decide, ?_⟩, ⟨rfl, ?_⟩, ?_, ?_⟩
  · unfold StoresOnce
    decide
  · have isNested : nestedUnions.membersOf? .union ⟨16⟩ = some [] := rfl
    exact FlattensTo.nested isNested .nil .nil
  · rfl
  · decide +kernel

end Arena

end ShapeCheck
