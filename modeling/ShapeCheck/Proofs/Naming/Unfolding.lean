import ShapeCheck.Proofs.Naming.Names

set_option autoImplicit false

/-! # Names of unions and intersections

A union unfolds into types that are no unions, and an intersection into types that are no
intersections, however the members are nested. A name is joined from the names of what a type unfolds
into, and as these are pieces between separators, the name determines them.

Main facts: `Arena.Legible.exists_alternatives`, `Arena.Legible.exists_conjuncts` and
`marked_injective` (a name determines the mark in front of it and the pieces).
-/

namespace ShapeCheck

/-! ## Unfolding -/

/-- The types that are left when members take the place of what they are members of. -/
inductive Arena.Unfolds (arena : Arena) (parts? : Descriptor → Option (List TypeId)) :
    TypeId → TypeId → Prop
  | self {type : TypeId} {descriptor : Descriptor} :
      arena.lookup? type = some descriptor → parts? descriptor = none →
        Unfolds arena parts? type type
  | part {type member target : TypeId} {descriptor : Descriptor} {members : List TypeId} :
      arena.lookup? type = some descriptor → parts? descriptor = some members → member ∈ members →
        Unfolds arena parts? member target → Unfolds arena parts? type target

/-- The texts are the names of what a type unfolds into, and pieces between separators. -/
structure Arena.Texts (arena : Arena) (parts? : Descriptor → Option (List TypeId))
    (stops : List Char) (exact : Bool) (type : TypeId) (texts : List String) : Prop where
  some : texts ≠ []
  pieces : ∀ text ∈ texts, Text.IsPiece stops text
  sound : ∀ text ∈ texts, ∃ target, arena.Unfolds parts? type target ∧
    arena.HasName exact target text
  complete : ∀ target, arena.Unfolds parts? type target → ∃ text ∈ texts,
    arena.HasName exact target text

/-! ## Joined texts -/

theorem intercalate_flatten (separator : String) {lists : List (List String)}
    (some : ∀ texts ∈ lists, texts ≠ []) :
    separator.intercalate (lists.map separator.intercalate) =
      separator.intercalate lists.flatten := by
  induction lists with
  | nil => rfl
  | cons texts rest ih =>
    have ih := ih fun texts inside => some texts (by simp [inside])
    cases rest with
    | nil => simp
    | cons next rest =>
      have others : (next :: rest).flatten ≠ [] := by
        intro empty
        exact some next (by simp) (List.flatten_eq_nil_iff.1 empty next (by simp))
      rw [List.flatten_cons, String.intercalate_append_of_ne_nil (some texts (by simp)) others, ← ih,
        List.map_cons, String.intercalate_cons_of_ne_nil (by simp)]

theorem length_le_flatten {lists : List (List String)} (some : ∀ texts ∈ lists, texts ≠ []) :
    lists.length ≤ lists.flatten.length := by
  induction lists with
  | nil => exact Nat.le_refl 0
  | cons texts rest ih =>
    have first := List.length_pos_of_ne_nil (some texts (by simp))
    have others := ih fun texts inside => some texts (by simp [inside])
    rw [List.flatten_cons, List.length_append, List.length_cons]
    omega

theorem two_le_length_of_ne {α : Type} {a b : α} {l : List α} (inside : a ∈ l) (inside' : b ∈ l)
    (ne : a ≠ b) : 2 ≤ l.length := by
  match l with
  | [] => cases inside
  | [c] => exact absurd ((List.mem_singleton.1 inside).trans (List.mem_singleton.1 inside').symm) ne
  | _ :: _ :: _ => simp

theorem exists_map_of_forall {α β : Type} {f : α → β} {S : α → Prop} {bs : List β}
    (h : ∀ b ∈ bs, ∃ a, b = f a ∧ S a) : ∃ as : List α, bs = as.map f ∧ ∀ a ∈ as, S a := by
  induction bs with
  | nil => exact ⟨[], rfl, by simp⟩
  | cons b rest ih =>
    obtain ⟨a, rfl, here⟩ := h b (by simp)
    obtain ⟨as, rfl, there⟩ := ih fun b inside => h b (by simp [inside])
    exact ⟨a :: as, rfl, List.forall_mem_cons.2 ⟨here, there⟩⟩

namespace Arena

variable {arena : Arena} {parts? : Descriptor → Option (List TypeId)} {stops : List Char}
  {exact : Bool} {separator : String} (isSeparator : Text.IsSeparator stops separator)

include isSeparator in
/-- The texts of the members of a type are those of the type. -/
theorem exists_texts_of_members {type : TypeId} {descriptor : Descriptor} {members : List TypeId}
    (found : arena.lookup? type = some descriptor) (parts : parts? descriptor = some members)
    (inhabited : members ≠ []) {names : List String}
    (related : List.Forall₂ (fun member name => ∃ texts,
      arena.Texts parts? stops exact member texts ∧ name = separator.intercalate texts)
        members names) :
    ∃ texts, arena.Texts parts? stops exact type texts ∧
      separator.intercalate (Text.sortUnique names) = separator.intercalate texts ∧
        (Text.sortUnique names).length ≤ texts.length := by
  have each : ∀ name ∈ Text.sortUnique names, ∃ texts, name = separator.intercalate texts ∧
      ∃ member ∈ members, arena.Texts parts? stops exact member texts := by
    intro name inside
    obtain ⟨member, listed, texts, here, rfl⟩ :=
      exists_left_of_forall₂ related (Text.mem_sortUnique.1 inside)
    exact ⟨texts, rfl, member, listed, here⟩
  obtain ⟨lists, same, each⟩ := exists_map_of_forall each
  have some : ∀ texts ∈ lists, texts ≠ [] := fun texts inside =>
    let ⟨_, _, here⟩ := each texts inside
    here.some
  rw [same, List.length_map]
  refine ⟨lists.flatten, ⟨?_, ?_, ?_, ?_⟩, intercalate_flatten separator some,
    length_le_flatten some⟩
  · obtain ⟨member, inside⟩ := List.exists_mem_of_ne_nil members inhabited
    obtain ⟨name, listed, -⟩ := exists_right_of_forall₂ related inside
    have nonempty : lists ≠ [] := by
      rintro rfl
      have there := Text.mem_sortUnique.2 listed
      rw [same] at there
      cases there
    have long := length_le_flatten some
    have := List.length_pos_of_ne_nil nonempty
    exact List.ne_nil_of_length_pos (by omega)
  · intro text inside
    obtain ⟨texts, listed, inside⟩ := List.mem_flatten.1 inside
    obtain ⟨_, _, here⟩ := each texts listed
    exact here.pieces text inside
  · intro text inside
    obtain ⟨texts, listed, inside⟩ := List.mem_flatten.1 inside
    obtain ⟨member, among, here⟩ := each texts listed
    obtain ⟨target, unfolds, named⟩ := here.sound text inside
    exact ⟨target, .part found parts among unfolds, named⟩
  · intro target unfolds
    cases unfolds with
    | self found' none =>
      obtain rfl := Option.some.inj (found.symm.trans found')
      rw [parts] at none
      cases none
    | part found' parts' among unfolds =>
      obtain rfl := Option.some.inj (found.symm.trans found')
      obtain rfl := Option.some.inj (parts.symm.trans parts')
      obtain ⟨name, listed, texts, here, named⟩ := exists_right_of_forall₂ related among
      -- a member of the same name may have been kept in place of this one
      have kept := Text.mem_sortUnique.2 listed
      rw [same] at kept
      obtain ⟨texts', listed', named'⟩ := List.mem_map.1 kept
      obtain ⟨_, _, here'⟩ := each texts' listed'
      obtain rfl := Text.intercalate_injective isSeparator here.pieces here'.pieces
        (named.symm.trans named'.symm)
      obtain ⟨text, inside, known⟩ := here.complete target unfolds
      exact ⟨text, List.mem_flatten.2 ⟨texts, listed', inside⟩, known⟩

/-- A type that does not unfold has its own name for a text. -/
theorem texts_self {type : TypeId} {descriptor : Descriptor}
    (found : arena.lookup? type = some descriptor) (leaf : parts? descriptor = none) {name : String}
    (named : arena.HasName exact type name) (piece : Text.IsPiece stops name) :
    arena.Texts parts? stops exact type [name] := by
  refine ⟨by simp, by simpa using piece, ?_, ?_⟩
  · intro text inside
    obtain rfl := List.mem_singleton.1 inside
    exact ⟨type, .self found leaf, named⟩
  · intro target unfolds
    refine ⟨name, by simp, ?_⟩
    cases unfolds with
    | self => exact named
    | part found' parts =>
      obtain rfl := Option.some.inj (found.symm.trans found')
      rw [leaf] at parts
      cases parts

include isSeparator in
/-- A name is joined from the names of what the type unfolds into. -/
theorem exists_texts (P : TypeId → Prop)
    (joins : ∀ name descriptor members, parts? descriptor = some members →
      descriptor.nameWith arena name [] exact = membersNameWith name [] exact separator members)
    (onwards : ∀ type, P type → ∀ descriptor members, arena.lookup? type = some descriptor →
      parts? descriptor = some members → members ≠ [] ∧ ∀ member ∈ members, P member)
    (leaves : ∀ type, P type → ∀ descriptor name, arena.lookup? type = some descriptor →
      parts? descriptor = none → arena.HasName exact type name → Text.IsPiece stops name)
    {depth : Nat} {type : TypeId} {name : String} (here : P type)
    (made : typeNameWithin arena depth [] exact type = .ok name) :
    ∃ texts, arena.Texts parts? stops exact type texts ∧ name = separator.intercalate texts := by
  induction depth generalizing type name with
  | zero => cases made
  | succ depth ih =>
    have named : arena.HasName exact type name := ⟨depth + 1, made⟩
    obtain ⟨below, descriptor, same, found, made⟩ := nameWith_of_within made
    obtain rfl := Nat.succ.inj same
    cases parts : parts? descriptor with
    | none =>
      exact ⟨[name], texts_self found parts named (leaves type here descriptor name found parts named),
        by simp⟩
    | some members =>
      obtain ⟨inhabited, goods⟩ := onwards type here descriptor members found parts
      rw [joins _ _ _ parts] at made
      obtain ⟨names, each, made⟩ := bind_eq_ok.1 made
      have related : List.Forall₂ (fun member name => ∃ texts,
          arena.Texts parts? stops exact member texts ∧ name = separator.intercalate texts)
            members names :=
        ((List.forall₂_and_left _ _).2 ⟨goods, mapM_eq_ok.1 each⟩).imp fun _ _ h => ih h.1 h.2
      obtain ⟨texts, reads, same, -⟩ :=
        exists_texts_of_members isSeparator found parts inhabited related
      exact ⟨texts, reads, (Except.ok.inj made).symm.trans same⟩

end Arena

/-! ## Marks -/

theorem isSeparator_bar : Text.IsSeparator ['|'] " | " :=
  ⟨[' '], '|', [' '], rfl, .of_chars (by decide), by decide, by decide⟩

theorem isSeparator_ampersand : Text.IsSeparator ['&'] " & " :=
  ⟨[' '], '&', [' '], rfl, .of_chars (by decide), by decide, by decide⟩

theorem Text.IsPiece.mono {stops stops' : List Char} {text : String} (h : Text.IsPiece stops text)
    (le : ∀ c ∈ stops', c ∈ stops) : Text.IsPiece stops' text := ⟨h.1, h.2.mono le⟩

/-- A piece does not start with one of its stops. -/
theorem Text.IsPiece.start_ne {stops : List Char} {text : String} (h : Text.IsPiece stops text)
    {c : Char} (stop : c ∈ stops) (plain : Text.isMark c = false) {tail : List Char} :
    text.toList ≠ c :: tail := by
  intro chars
  have closed := h.2
  rw [chars] at closed
  have ends : Text.Ends stops c := .inl ⟨stop, plain⟩
  have longer : c :: (tail ++ ['>']) = (c :: tail) ++ '>' :: [] := rfl
  cases closed.eq_nil_of_ends ends longer

/-- What stands behind the first of joined pieces. -/
theorem exists_tail (text : String) (rest : List String) : ∃ tail,
    (" & ".intercalate (text :: rest)).toList = text.toList ++ tail ∧
      (tail = [] ∨ ∃ others, tail = ' ' :: '&' :: others) := by
  cases rest with
  | nil => exact ⟨[], by simp, .inl rfl⟩
  | cons next rest =>
    refine ⟨_, ?_, .inr ⟨' ' :: (" & ".intercalate (next :: rest)).toList, rfl⟩⟩
    rw [String.intercalate_cons_cons, String.toList_append, String.toList_append,
      List.append_assoc]
    rfl

section
variable {texts texts' : List String} (some : texts ≠ []) (some' : texts' ≠ [])
  (pieces : ∀ text ∈ texts, Text.IsPiece formStops text)
  (pieces' : ∀ text ∈ texts', Text.IsPiece formStops text)
include some some' pieces pieces'

/-- The mark is not the start of a piece. -/
theorem marked_ne : "exact " ++ " & ".intercalate texts ≠ " & ".intercalate texts' := by
  intro same
  obtain ⟨first, rest, rfl⟩ := List.exists_cons_of_ne_nil some
  obtain ⟨first', rest', rfl⟩ := List.exists_cons_of_ne_nil some'
  obtain ⟨tail, chars, -⟩ := exists_tail first rest
  obtain ⟨tail', chars', shape⟩ := exists_tail first' rest'
  have whole := congrArg String.toList same
  rw [String.toList_append, chars, chars'] at whole
  have blank : Text.Ends formStops ' ' := .inl ⟨by decide, by decide⟩
  have ends' : ∀ c others, tail' = c :: others → Text.Ends formStops c := by
    rintro c others rfl
    rcases shape with none | ⟨_, next⟩
    · cases none
    · rw [(List.cons.inj next).1]
      exact blank
  have word : Text.Closed formStops "exact".toList := .of_chars (by decide)
  have starts : ∀ c others, ' ' :: (first.toList ++ tail) = c :: others → Text.Ends formStops c := by
    intro c others same
    rw [← (List.cons.inj same).1]
    exact blank
  obtain ⟨-, tails⟩ := word.append_injective (pieces' first' (by simp)).2 starts ends' whole
  rcases shape with rfl | ⟨others, rfl⟩
  · cases tails
  · obtain ⟨c, front, start⟩ := List.exists_cons_of_ne_nil
      (fun empty => (pieces first (by simp)).1 (String.toList_inj.1 empty))
    have ampersand := (List.cons.inj tails).2
    rw [start] at ampersand
    obtain ⟨rfl, -⟩ := List.cons.inj ampersand
    exact (pieces first (by simp)).start_ne (by decide) (by decide) start

/-- A name determines the mark in front of it and the pieces that it is joined from. -/
theorem marked_injective {exact exact' : Bool}
    (same : exactMark exact ++ " & ".intercalate texts =
      exactMark exact' ++ " & ".intercalate texts') : exact = exact' ∧ texts = texts' := by
  have plain {texts : List String} (pieces : ∀ text ∈ texts, Text.IsPiece formStops text) :
      ∀ text ∈ texts, Text.IsPiece ['&'] text :=
    fun text inside => (pieces text inside).mono (by decide)
  have equal (same : " & ".intercalate texts = " & ".intercalate texts') : texts = texts' :=
    Text.intercalate_injective isSeparator_ampersand (plain pieces) (plain pieces') same
  cases exact <;> cases exact' <;> simp only [exactMark, Bool.false_eq_true, if_false, if_true,
    String.empty_append] at same
  · exact ⟨rfl, equal same⟩
  · exact absurd same.symm (marked_ne some' some pieces' pieces)
  · exact absurd same (marked_ne some some' pieces pieces')
  · have chars := congrArg String.toList same
    rw [String.toList_append, String.toList_append, List.append_cancel_left_eq] at chars
    exact ⟨rfl, equal (String.toList_inj.1 chars)⟩

end

/-! ## Legible names -/

/-- How the name of a type that is not a union is read: a mark, and the pieces behind it. -/
inductive Arena.Reads (arena : Arena) (exact : Bool) (type : TypeId) : Bool → List String → Prop
  | form {descriptor : Descriptor} {form : Form} :
      arena.lookup? type = some descriptor → descriptor.conjuncts? = none →
        descriptor.Spells (arena.HasName exact) form →
          (∀ part ∈ form.parts, Text.IsPiece typeStops part) →
            Reads arena exact type (exact && form.isMarked) [form.core arena]
  | intersection {members : List TypeId} {texts : List String} :
      arena.lookup? type = some (.intersection members) →
        arena.Texts Descriptor.conjuncts? formStops false type texts →
          (exact = true → 2 ≤ texts.length) → Reads arena exact type exact texts

namespace Arena.Reads

variable {arena : Arena} {exact : Bool} {type : TypeId} {marked : Bool} {texts : List String}
  (h : arena.Reads exact type marked texts)
include h

theorem some : texts ≠ [] := by
  cases h with
  | form => simp
  | intersection _ conjuncts => exact conjuncts.some

theorem pieces (named : arena.NamedByIdentifiers) :
    ∀ text ∈ texts, Text.IsPiece formStops text := by
  cases h with
  | form _ _ _ parts => simpa using Form.isPiece_core named parts
  | intersection _ conjuncts => exact conjuncts.pieces

end Arena.Reads

namespace Arena.Legible

variable {arena : Arena} {Good : Goal → Prop} (h : arena.Legible Good) {type : TypeId} {exact : Bool}
include h

/-- The name of a type that is neither a union nor an intersection is a form. -/
theorem exists_form (good : Good (.ofType type exact)) {descriptor : Descriptor}
    (found : arena.lookup? type = some descriptor) (notUnion : descriptor.alternatives? = none)
    (notIntersection : descriptor.conjuncts? = none) {name : String}
    (named : arena.HasName exact type name) : ∃ form : Form,
      descriptor.Spells (arena.HasName exact) form ∧
        (∀ part ∈ form.parts, Text.IsPiece typeStops part) ∧
          name = exactMark (exact && form.isMarked) ++ form.core arena := by
  obtain ⟨depth, made⟩ := named
  obtain ⟨below, descriptor', rfl, found', made⟩ := nameWith_of_within made
  obtain rfl := Option.some.inj (found.symm.trans found')
  obtain ⟨form, spells, written⟩ := Descriptor.exists_form
    (h.monomorphic type exact good descriptor found) notUnion notIntersection made
  refine ⟨form, spells.imp fun _ _ => hasName_of_within, fun part inside => ?_, written⟩
  obtain ⟨child, named, good⟩ := (h.spells_good good found spells).exists_part inside
  exact h.isPiece_within good named

/-- The name of a type that is not a union, without the check for superfluous keys. -/
theorem exists_conjuncts (good : Good (.ofType type false))
    (notUnion : ∀ members, arena.lookup? type ≠ some (.union members)) {name : String}
    (named : arena.HasName false type name) : ∃ texts,
      arena.Texts Descriptor.conjuncts? formStops false type texts ∧
        name = " & ".intercalate texts := by
  obtain ⟨depth, made⟩ := named
  have stop : Text.IsSeparator formStops " & " :=
    ⟨[], ' ', "& ".toList, rfl, .nil, by decide, by decide⟩
  refine exists_texts stop
    (fun type => Good (.ofType type false) ∧ ∀ members, arena.lookup? type ≠ some (.union members))
    ?_ ?_ ?_ ⟨good, notUnion⟩ made
  · intro name descriptor members parts
    cases descriptor <;> cases parts
    simp [Descriptor.nameWith, exactMark]
  · rintro type ⟨good, _⟩ descriptor members found parts
    cases descriptor <;> cases parts
    have legible := h.legible type false good _ found
    exact ⟨legible.1, fun member inside =>
      ⟨h.closed _ _ good (.intersection found inside), legible.2.1 member inside⟩⟩
  · rintro type ⟨good, notUnion⟩ descriptor name found leaf named
    have notUnion : descriptor.alternatives? = none := by
      cases descriptor with
      | union members => exact absurd found (notUnion members)
      | _ => rfl
    obtain ⟨form, -, parts, rfl⟩ := h.exists_form good found notUnion leaf named
    have piece := Form.isPiece_core h.named parts
    simpa [exactMark] using piece

/-- A type that is not a union has a name that can be read. -/
theorem exists_reads (good : Good (.ofType type exact))
    (notUnion : ∀ members, arena.lookup? type ≠ some (.union members)) {name : String}
    (named : arena.HasName exact type name) : ∃ marked texts,
      arena.Reads exact type marked texts ∧
        name = exactMark marked ++ " & ".intercalate texts := by
  obtain ⟨depth, made⟩ := id named
  obtain ⟨below, descriptor, rfl, found, made⟩ := nameWith_of_within made
  cases kind : descriptor.conjuncts? with
  | none =>
    have notUnion : descriptor.alternatives? = none := by
      cases descriptor with
      | union members => exact absurd found (notUnion members)
      | _ => rfl
    obtain ⟨form, spells, parts, written⟩ := h.exists_form good found notUnion kind named
    exact ⟨_, _, .form found kind spells parts, by rw [written, String.intercalate_singleton]⟩
  | some members =>
    obtain rfl : descriptor = .intersection members := by
      cases descriptor <;> cases kind
      rfl
    obtain ⟨inhabited, notUnions, different⟩ := h.legible type exact good _ found
    obtain ⟨text, here, made⟩ := bind_eq_ok.1 made
    obtain ⟨names, each, here⟩ := bind_eq_ok.1 here
    have related := mapM_eq_ok.1 each
    have members : List.Forall₂ (fun member name => ∃ texts,
        arena.Texts Descriptor.conjuncts? formStops false member texts ∧
          name = " & ".intercalate texts) members names := by
      refine ((List.forall₂_and_left _ _).2 ⟨fun member inside => inside, related⟩).imp
        fun member name here => ?_
      exact h.exists_conjuncts (h.closed _ _ good (.intersection found here.1))
        (notUnions member here.1) ⟨below, here.2⟩
    have stop : Text.IsSeparator formStops " & " :=
      ⟨[], ' ', "& ".toList, rfl, .nil, by decide, by decide⟩
    obtain ⟨texts, reads, same, long⟩ := exists_texts_of_members stop found rfl inhabited members
    refine ⟨exact, texts, .intersection found reads fun exact => long.trans' ?_, ?_⟩
    · obtain ⟨one, inside, two, inside', apart⟩ := different exact
      obtain ⟨name, listed, made⟩ := exists_right_of_forall₂ related inside
      obtain ⟨name', listed', made'⟩ := exists_right_of_forall₂ related inside'
      refine two_le_length_of_ne (Text.mem_sortUnique.2 listed) (Text.mem_sortUnique.2 listed') ?_
      rintro rfl
      exact apart name ⟨below, made⟩ ⟨below, made'⟩
    · rw [← Except.ok.inj made, ← Except.ok.inj here, same]

/-- The name of a type is joined from names that can be read. -/
theorem exists_alternatives (good : Good (.ofType type exact)) {name : String}
    (named : arena.HasName exact type name) : ∃ texts,
      arena.Texts Descriptor.alternatives? ['|'] exact type texts ∧
        name = " | ".intercalate texts := by
  obtain ⟨depth, made⟩ := named
  refine exists_texts isSeparator_bar (fun type => Good (.ofType type exact)) ?_ ?_ ?_ good made
  · intro name descriptor members parts
    cases descriptor <;> cases parts
    rfl
  · intro type good descriptor members found parts
    cases descriptor <;> cases parts
    exact ⟨h.monomorphic type exact good _ found,
      fun member inside => h.closed _ _ good (.union found inside)⟩
  · intro type good descriptor name found leaf named
    have notUnion (members : List TypeId) : arena.lookup? type ≠ some (.union members) := by
      intro union
      obtain rfl := Option.some.inj (found.symm.trans union)
      cases leaf
    obtain ⟨marked, texts, reads, rfl⟩ := h.exists_reads good notUnion named
    refine isPiece_exactMark (by decide) marked (isPiece_intercalate (.of_chars (by decide))
      reads.some fun text inside => (reads.pieces h.named text inside).mono (by decide))

end Arena.Legible

end ShapeCheck
