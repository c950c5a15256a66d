import ShapeCheck.Proofs.Inheritance.Bases
import ShapeCheck.Proofs.Inheritance.Keys
import ShapeCheck.Proofs.Narrowing.Tables
import ShapeCheck.Proofs.Semantics.Correctness

set_option autoImplicit false

/-! # Extending is intersecting

A definition that extends others is checked as one object with the members of all of them. If no member is
declared twice, that object is what the body of the definition and all of its bases are at once: a value is
accepted exactly if the body accepts it and every base does, each in its own place.

Main facts: `ObjectShape.isUnion_of_merged`, `ObjectShape.admits_merged_iff` and
`Validator.Serves.verdict_iff_of_extends`.
-/

namespace ShapeCheck

variable {arena : Arena}

/-! ## Shapes with the members of several others -/

/-- The shape declares what one of the others declares. -/
structure ObjectShape.IsUnion (shape : ObjectShape) (shapes : List ObjectShape) : Prop where
  properties : ∀ property, property ∈ shape.properties ↔ ∃ other ∈ shapes, property ∈ other.properties
  index : ∀ part, shape.index = some part ↔ ∃ other ∈ shapes, other.index = some part

/-- No name is declared twice, and at most one shape has an index signature. -/
structure ObjectShape.Apart (shapes : List ObjectShape) : Prop where
  names : ((shapes.flatMap ObjectShape.properties).map Property.name).Nodup
  signatures : (shapes.filterMap ObjectShape.index).length ≤ 1

namespace ObjectShape

theorem Apart.sublist {shapes shapes' : List ObjectShape} (h : Apart shapes) (part : shapes'.Sublist shapes) :
    Apart shapes' where
  names := h.names.sublist ((part.flatMap _).map _)
  signatures := (part.filterMap _).length_le.trans h.signatures

/-- A merged shape declares what the shapes behind the definition declare, if no name is there twice. -/
theorem isUnion_of_merged {steps : Nat} {definition : Definition} {shape : ObjectShape}
    (merged : mergedShapeWithin arena steps definition = .ok shape)
    (apart : Apart (arena.shapesWithin steps definition)) :
    shape.IsUnion (arena.shapesWithin steps definition) := by
  have search := mergedShapeWithin_search merged
  refine ⟨fun property => ⟨mem_properties_of_merged merged, ?_⟩, fun part => ?_⟩
  · rintro ⟨other, listed, declares⟩
    -- some declaration of the name is found, and there is only this one
    obtain ⟨first, found⟩ : ∃ first, shape.property? property.name = some first := by
      refine Option.ne_none_iff_exists'.1 ?_
      rw [search.property?, Ne, List.findSome?_eq_none_iff]
      intro silent
      have undeclared := silent other listed
      simp only [property?, List.find?_eq_none] at undeclared
      exact undeclared property declares (by simp)
    have member : first ∈ shape.properties := List.mem_of_find?_eq_some found
    have same : first.name = property.name := by simpa using List.find?_some found
    obtain ⟨another, there, declared⟩ := mem_properties_of_merged merged member
    have equal : first = property := List.inj_on_of_nodup_map apart.names
      (List.mem_flatMap.2 ⟨another, there, declared⟩) (List.mem_flatMap.2 ⟨other, listed, declares⟩) same
    exact equal ▸ member
  · rw [search.index]
    constructor
    · exact List.exists_of_findSome?_eq_some
    · rintro ⟨other, listed, signature⟩
      obtain ⟨part', found⟩ : ∃ part',
          (arena.shapesWithin steps definition).findSome? ObjectShape.index = some part' := by
        refine Option.isSome_iff_exists.1 ?_
        rw [List.findSome?_isSome_iff]
        exact ⟨other, listed, by rw [signature]; rfl⟩
      obtain ⟨another, there, signature'⟩ := List.exists_of_findSome?_eq_some found
      have inside := List.mem_filterMap.2 ⟨other, listed, signature⟩
      have inside' := List.mem_filterMap.2 ⟨another, there, signature'⟩
      have single := apart.signatures
      generalize (arena.shapesWithin steps definition).filterMap ObjectShape.index = parts at inside inside' single
      rcases parts with _ | ⟨only, _ | _⟩
      · cases inside
      · rw [found, List.mem_singleton.1 inside, List.mem_singleton.1 inside']
      · simp at single

/-- Without the check for superfluous keys, a value of a shape is one of every shape that declares no more.
-/
theorem Admits.of_le {shape other : ObjectShape} {A : TypeId → Bool → Value → Prop} {v : Value}
    (h : shape.Admits A false v)
    (properties : ∀ property ∈ other.properties, property ∈ shape.properties)
    (index : ∀ part, other.index = some part → shape.index = some part) : other.Admits A false v where
  isObject := h.isObject
  notArray := h.notArray
  properties property inside := h.properties property (properties property inside)
  index part signature := h.index part (index part signature)
  declared _ := nofun

/-- A value of the merged shape is one of the own shape and of those of all bases. -/
theorem admits_merged_iff {steps : Nat} {definition : Definition} {shape own : ObjectShape} {body : TypeId}
    {inherited : TypeId → ObjectShape} {A : TypeId → Bool → Value → Prop} {v : Value}
    (merged : mergedShapeWithin arena (steps + 1) definition = .ok shape)
    (apart : Apart (arena.shapesWithin (steps + 1) definition))
    (given : definition.body = some body) (found : arena.lookup? body = some (.object own))
    (bases : ∀ base ∈ definition.bases, ∃ inner, arena.baseOf? base = some inner ∧
      mergedShapeWithin arena steps inner = .ok (inherited base)) :
    shape.Admits A false v ↔
      own.Admits A false v ∧ ∀ base ∈ definition.bases, (inherited base).Admits A false v := by
  have union := isUnion_of_merged merged apart
  have shapes := shapesWithin_succ given found steps
  rw [shapes] at union apart
  have below (base : TypeId) (inside : base ∈ definition.bases) :
      (inherited base).IsUnion (arena.baseShapes steps base) := by
    obtain ⟨inner, isBase, merged⟩ := bases base inside
    have listed : arena.baseShapes steps base = arena.shapesWithin steps inner := by
      rw [Arena.baseShapes, isBase, Option.elim_some]
    rw [listed]
    refine isUnion_of_merged merged (apart.sublist ?_)
    rw [← listed]
    exact .cons _ (List.sublist_flatten_of_mem (List.mem_map_of_mem inside))
  constructor
  · intro h
    refine ⟨h.of_le (fun property inside => ?_) fun part signature => ?_, fun base inside =>
      h.of_le (fun property declared => ?_) fun part signature => ?_⟩
    · exact (union.properties property).2 ⟨own, List.mem_cons_self, inside⟩
    · exact (union.index part).2 ⟨own, List.mem_cons_self, signature⟩
    · obtain ⟨other, listed, declares⟩ := ((below base inside).properties property).1 declared
      exact (union.properties property).2
        ⟨other, List.mem_cons_of_mem _ (List.mem_flatMap.2 ⟨base, inside, listed⟩), declares⟩
    · obtain ⟨other, listed, declares⟩ := ((below base inside).index part).1 signature
      exact (union.index part).2
        ⟨other, List.mem_cons_of_mem _ (List.mem_flatMap.2 ⟨base, inside, listed⟩), declares⟩
  · rintro ⟨here, there⟩
    refine ⟨here.isObject, here.notArray, fun property declared => ?_, fun part signature => ?_, fun _ strict => absurd strict Bool.false_ne_true⟩
    · obtain ⟨other, listed, declares⟩ := (union.properties property).1 declared
      rcases List.mem_cons.1 listed with rfl | listed
      · exact here.properties property declares
      · obtain ⟨base, inside, listed⟩ := List.mem_flatMap.1 listed
        exact (there base inside).properties property
          (((below base inside).properties property).2 ⟨other, listed, declares⟩)
    · obtain ⟨other, listed, declares⟩ := (union.index part).1 signature
      rcases List.mem_cons.1 listed with rfl | listed
      · exact here.index part declares
      · obtain ⟨base, inside, listed⟩ := List.mem_flatMap.1 listed
        exact (there base inside).index part (((below base inside).index part).2 ⟨other, listed, declares⟩)

end ObjectShape

/-! ## References to definitions with a merged shape -/

namespace Arena

/-- The values of a definition with a merged shape are those of the shape, whether it extends others or
not. -/
theorem fits_iff_admits_merged {definition : Definition} {shape : ObjectShape} {exact : Bool}
    {s : Substitution} {v : Value} (merged : arena.mergedShape definition = .ok shape) :
    definition.Fits arena arena.Contains exact v s ↔
      shape.Admits (fun part exact => arena.Contains exact (s, part)) exact v := by
  constructor
  · intro h
    cases h with
    | merged derived merged' here =>
      obtain rfl := Except.ok.inj (merged.symm.trans merged')
      exact here
    | @body part plain given here =>
      obtain ⟨body, own, given', found, folded⟩ := mergedShapeWithin_eq_ok merged
      obtain rfl := Option.some.inj (given.symm.trans given')
      rw [plain] at folded
      obtain rfl := Except.ok.inj folded
      exact (contains_iff_fits found nofun v).1 here
  · intro h
    by_cases plain : definition.bases = []
    · obtain ⟨body, own, given, found, folded⟩ := mergedShapeWithin_eq_ok merged
      rw [plain] at folded
      obtain rfl := Except.ok.inj folded
      exact .body plain given ((contains_iff_fits found nofun v).2 h)
    · exact .merged plain merged h

variable {s : Substitution} {type : TypeId} {target : DefinitionId} {arguments : List TypeId}
  {definition : Definition} {bindings : Instantiation} {shape : ObjectShape}

/-- The values of a reference to a definition with a merged shape are those of the shape inside of it. -/
theorem contains_reference_iff (found : arena.lookup? type = some (.reference target arguments))
    (known : arena.definition? target = some definition)
    (bound : Instantiation.ofArguments arena definition arguments = .ok bindings)
    (merged : arena.mergedShape definition = .ok shape) {exact : Bool} {v : Value} :
    arena.Contains exact (s, type) v ↔
      shape.Admits (fun part exact => arena.Contains exact (s.within bindings, part)) exact v := by
  rw [contains_iff_fits found nofun, ← fits_iff_admits_merged merged]
  constructor
  · rintro ⟨definition', bindings', known', bound', fits⟩
    obtain rfl := Option.some.inj (known.symm.trans known')
    obtain rfl := Except.ok.inj (bound.symm.trans bound')
    exact fits
  · exact fun fits => ⟨definition, bindings, known, bound, fits⟩

/-- If no member is declared twice and every base is reached once, the values of a reference are those of
the body that are also values of every base. -/
theorem contains_iff_of_extends {inside : Substitution} {body : TypeId} {v : Value}
    (found : arena.lookup? type = some (.reference target arguments))
    (known : arena.definition? target = some definition)
    (entered : s.enter arena definition arguments = .ok inside) (given : definition.body = some body)
    (merged : arena.mergedShape definition = .ok shape)
    (once : (arena.boundParameters definition).Nodup) (apart : ObjectShape.Apart (arena.shapes definition)) :
    arena.Contains false (s, type) v ↔
      arena.Contains false (inside, body) v ∧
        ∀ base ∈ definition.bases, arena.Contains false (inside, base) v := by
  obtain ⟨bindings, bound, rfl⟩ := Substitution.enter_eq_within entered
  have merging : mergedShapeWithin arena (63 + 1) definition = .ok shape := merged
  obtain ⟨body', own, given', isObject, -⟩ := mergedShapeWithin_eq_ok merging
  obtain rfl := Option.some.inj (given.symm.trans given')
  have bases (base : TypeId) (listed : base ∈ definition.bases) :
      ∃ inherited, (∃ inner, arena.baseOf? base = some inner ∧
        mergedShapeWithin arena 63 inner = .ok inherited) ∧
          (arena.Contains false (s.within bindings, base) v ↔
            inherited.Admits (fun part exact => arena.Contains exact (s.within bindings, part)) false v) := by
    obtain ⟨target', arguments', inner, inherited, leads, known', below⟩ :=
      exists_merged_of_mem_bases merging listed
    have isBase : arena.baseOf? base = some inner := by
      rw [baseOf?, leads]
      exact known'
    refine ⟨inherited, ⟨inner, isBase, below⟩, ?_⟩
    have merged' : arena.mergedShape inner = .ok inherited := mergedShapeWithin_succ_of_merged below
    obtain ⟨bindings', bound'⟩ := exists_bindBases_of_merged merged'
      (Instantiation.bindAll arena .outer [] inner.parameters arguments')
    -- the members of the base, read inside of it and read inside of the definition
    have alike (part : TypeId) : arena.Alike (s.within bindings, part)
        ((s.within bindings).within bindings', part) :=
      alike_within_base bound once listed leads known' below bound' part
    rw [contains_reference_iff leads known' bound' merged']
    constructor
    · exact fun h => h.transfer (contains_passes arena) id (.self fun part _ => (alike part).symm)
    · exact fun h => h.transfer (contains_passes arena) id (.self fun part _ => alike part)
  choose! inherited isBase same using bases
  rw [contains_reference_iff found known bound merged, contains_iff_fits isObject (by rintro _ ⟨⟩),
    ObjectShape.admits_merged_iff merging apart given isObject isBase]
  exact and_congr Iff.rfl (forall₂_congr fun base listed => (same base listed).symm)

end Arena

/-! ## Verdicts -/

/-- A definition accepts a value exactly if its own body accepts it and every base does, each with the
arguments of the definition: if no member is declared twice, no base is reached twice and only one of the
shapes has an index signature. -/
theorem Validator.Serves.verdict_iff_of_extends
    (number : arena.lookup? (.ofKeyword .number) = some (.keyword .number))
    {s inside : Substitution} {type body : TypeId} {target : DefinitionId} {arguments : List TypeId}
    {definition : Definition} {shape : ObjectShape}
    (found : arena.lookup? type = some (.reference target arguments))
    (known : arena.definition? target = some definition)
    (entered : s.enter arena definition arguments = .ok inside) (given : definition.body = some body)
    (merged : arena.mergedShape definition = .ok shape)
    (once : (arena.boundParameters definition).Nodup) (apart : ObjectShape.Apart (arena.shapes definition))
    {whole own : Validator} {inherited : TypeId → Validator}
    (servesWhole : whole.Serves arena (.ofType false (s, type)))
    (servesOwn : own.Serves arena (.ofType false (inside, body)))
    (servesInherited : ∀ base ∈ definition.bases,
      (inherited base).Serves arena (.ofType false (inside, base)))
    {value : Value} {b b' : Bool} {below : TypeId → Bool} (decided : whole.verdict value = .ok b)
    (decidedOwn : own.verdict value = .ok b')
    (decidedInherited : ∀ base ∈ definition.bases, (inherited base).verdict value = .ok (below base)) :
    b = true ↔ b' = true ∧ ∀ base ∈ definition.bases, below base = true := by
  rw [servesWhole.verdict_iff number decided, servesOwn.verdict_iff number decidedOwn]
  refine (Arena.contains_iff_of_extends found known entered given merged once apart).trans ?_
  refine and_congr_right fun _ => forall₂_congr fun base listed => ?_
  exact ((servesInherited base listed).verdict_iff number (decidedInherited base listed)).symm

/-! ## A parcel -/

/-- `Wrapped<T>` has a content of the type `T`. `Parcel<U>` has a label and extends `Wrapped<U[]>`. The last
type is `Parcel<number>`. -/
def parcels : Arena where
  descriptors := Arena.initial.descriptors ++
    #[.parameter ⟨0⟩, .object ⟨[⟨"content", some ⟨14⟩, false, false, false⟩], none⟩, .parameter ⟨1⟩,
      .array ⟨16⟩, .reference ⟨0⟩ [⟨17⟩],
      .object ⟨[⟨"label", some (.ofKeyword .string), false, false, false⟩], none⟩,
      .reference ⟨1⟩ [.ofKeyword .number]]
  parameters := #[⟨"T", none⟩, ⟨"U", none⟩]
  definitions := #[⟨"Wrapped", [⟨0⟩], some ⟨15⟩, []⟩, ⟨"Parcel", [⟨1⟩], some ⟨19⟩, [⟨18⟩]⟩]

/-- Inside of `Parcel<number>`. -/
def insideParcel : Substitution := [[(⟨1⟩, ⟨.ofKeyword .number, .outer⟩), (⟨0⟩, ⟨⟨17⟩, .same⟩)]]

/-- Inside of the base of `Parcel<number>`. -/
def insideWrapped : Substitution := [(⟨0⟩, ⟨⟨17⟩, .outer⟩)] :: insideParcel

/-- What is compiled for `Parcel<number>`, for its body and for its base. -/
def parcelNames : List (Subject × Option String) :=
  [(.ofType false ([], ⟨20⟩), some "Parcel<number>"),
    (.ofType false (insideParcel, ⟨19⟩), some "{label: string}"),
    (.ofType false (insideParcel, ⟨18⟩), some "Wrapped<Array<number>>"),
    (.ofType false (insideWrapped, ⟨15⟩), some "{content: Array<number>}"),
    (.ofType false (insideParcel, .ofKeyword .string), some "string"),
    (.ofType false (insideParcel, ⟨14⟩), none), (.ofType false (insideWrapped, ⟨14⟩), none),
    (.ofType false (insideParcel, ⟨17⟩), some "Array<number>"),
    (.ofType false (insideParcel, ⟨16⟩), none), (.ofType false ([], .ofKeyword .number), some "number")]

theorem tells_parcelNames : Subject.tells parcels 9 [] parcelNames = true := by decide +kernel

theorem serves_of_parcelNames {s : Substitution} {type : TypeId} {v : Validator}
    (compiled : Context.Compiles ⟨parcels, {}, s⟩ type v)
    (listed : Subject.ofType false (s, type) ∈ parcelNames.map Prod.fst) :
    v.Serves parcels (.ofType false (s, type)) :=
  compiled.serves rfl (Subject.toldApart_of_tells tells_parcelNames rfl listed)

/-- A parcel that has texts for its content. -/
def textParcel : Value := .object [("label", .string "a"), ("content", .array [.string "b"])]

/-- The body of `Parcel<number>` accepts a parcel of texts, since it has a label. The base does not accept
it, and neither does `Parcel<number>`. -/
theorem verdict_iff_of_extends_parcels : ∃ whole own base : Validator,
    Context.Compiles ⟨parcels, {}, []⟩ ⟨20⟩ whole ∧ whole.verdict textParcel = .ok false ∧
      Context.Compiles ⟨parcels, {}, insideParcel⟩ ⟨19⟩ own ∧ own.verdict textParcel = .ok true ∧
        Context.Compiles ⟨parcels, {}, insideParcel⟩ ⟨18⟩ base ∧ base.verdict textParcel = .ok false ∧
          (false = true ↔ true = true ∧ ∀ base ∈ [(⟨18⟩ : TypeId)], false = true) := by
  have computed : (Context.validator? ⟨parcels, {}, []⟩ ⟨20⟩).bind
      (fun v => (v.verdict textParcel).toOption) = some false := by decide +kernel
  have computedOwn : (Context.validator? ⟨parcels, {}, insideParcel⟩ ⟨19⟩).bind
      (fun v => (v.verdict textParcel).toOption) = some true := by decide +kernel
  have computedBase : (Context.validator? ⟨parcels, {}, insideParcel⟩ ⟨18⟩).bind
      (fun v => (v.verdict textParcel).toOption) = some false := by decide +kernel
  obtain ⟨whole, compiled, decided⟩ := Context.exists_compiles computed
  obtain ⟨own, compiledOwn, decidedOwn⟩ := Context.exists_compiles computedOwn
  obtain ⟨base, compiledBase, decidedBase⟩ := Context.exists_compiles computedBase
  refine ⟨whole, own, base, compiled, decided, compiledOwn, decidedOwn, compiledBase, decidedBase, ?_⟩
  have merged : parcels.mergedShape ⟨"Parcel", [⟨1⟩], some ⟨19⟩, [⟨18⟩]⟩ =
      .ok ⟨[⟨"label", some (.ofKeyword .string), false, false, false⟩,
        ⟨"content", some ⟨14⟩, false, false, false⟩], none⟩ := by rfl
  have shapes : parcels.shapes ⟨"Parcel", [⟨1⟩], some ⟨19⟩, [⟨18⟩]⟩ =
      [⟨[⟨"label", some (.ofKeyword .string), false, false, false⟩], none⟩,
        ⟨[⟨"content", some ⟨14⟩, false, false, false⟩], none⟩] := by rfl
  have apart : ObjectShape.Apart (parcels.shapes ⟨"Parcel", [⟨1⟩], some ⟨19⟩, [⟨18⟩]⟩) := by
    rw [shapes]
    exact ⟨by simp, by simp⟩
  have servesBase (other : TypeId) (listed : other ∈ [(⟨18⟩ : TypeId)]) :
      base.Serves parcels (.ofType false (insideParcel, other)) := by
    obtain rfl := List.mem_singleton.1 listed
    exact serves_of_parcelNames compiledBase (by simp [parcelNames])
  have found : parcels.lookup? ⟨20⟩ = some (.reference ⟨1⟩ [.ofKeyword .number]) := rfl
  exact Validator.Serves.verdict_iff_of_extends rfl found rfl rfl rfl merged (by decide) apart
    (serves_of_parcelNames compiled (by simp [parcelNames]))
    (serves_of_parcelNames compiledOwn (by simp [parcelNames])) servesBase decided decidedOwn
    fun _ _ => decidedBase

end ShapeCheck
