import ShapeCheck.Compile.Basic
import ShapeCheck.Proofs.Inheritance.Chains
import ShapeCheck.Proofs.Outcome
import ShapeCheck.Validation.Diagnosis

set_option autoImplicit false

/-! # Keys that are inherited

The keys of a reference are collected from the body of its definition and then from the bases, each in
its own instantiation. The object check allows the keys of the merged shape. Both go over the same shapes:
the collection unites the keys of all of them, and the merged shape has the key of the first declaration
of each name.

A name can be declared as a text and as a symbol, and merging compares names only. A symbol that stands in
front of a text of the same name hides it, and then the object check does not allow a key that was
collected: `ObjectShape.Hides`.

Main facts: `KeySet.gathers_of_merged` and `Context.collectKeys_eq_keys`.
-/

namespace ShapeCheck

/-! ## Ascending keys -/

theorem Text.eq_of_mem_iff {texts texts' : List String} (ascends : texts.Pairwise (· < ·))
    (ascends' : texts'.Pairwise (· < ·)) (same : ∀ text, text ∈ texts ↔ text ∈ texts') :
    texts = texts' := by
  have distinct {texts : List String} (ascends : texts.Pairwise (· < ·)) : texts.Nodup :=
    ascends.imp fun {a b} (less : a < b) (same : a = b) => String.lt_irrefl b (same ▸ less)
  refine ((List.perm_ext_iff_of_nodup (distinct ascends) (distinct ascends')).2 same).eq_of_pairwise
    (fun a b _ _ less greater => ?_) ascends ascends'
  exact absurd greater (String.lt_asymm less)

theorem pairwise_gatherKeys {keysOf : TypeId → Except CompileError KeySet} {known keys : List String}
    {types : List TypeId} (ascends : known.Pairwise (· < ·))
    (gathered : gatherKeys keysOf known types = .ok (some keys)) : keys.Pairwise (· < ·) := by
  induction types generalizing known with
  | nil =>
    cases gathered
    exact ascends
  | cons type rest ih =>
    unfold gatherKeys at gathered
    obtain ⟨part?, -, gathered⟩ := bind_eq_ok.1 gathered
    cases part? with
    | none => cases gathered
    | some part => exact ih (Text.pairwise_sortUnique _) gathered

/-! ## The shapes that keys are gathered from -/

/-- A set of keys is that of several shapes: open if one of them has an index signature, and the keys of
all of them otherwise. -/
def KeySet.Gathers (shapes : List ObjectShape) : KeySet → Prop
  | none => ∃ shape ∈ shapes, shape.index.isSome
  | some keys => (∀ shape ∈ shapes, shape.index = none) ∧
      ∀ key, key ∈ keys ↔ ∃ shape ∈ shapes, key ∈ shape.keys

/-- Keys are gathered from the shapes behind what was known and behind each of the types. -/
theorem KeySet.gathers_gatherKeys {keysOf : TypeId → Except CompileError KeySet} {known : List String}
    {before : List ObjectShape} {types : List TypeId} {shapesOf : TypeId → List ObjectShape}
    {keys? : KeySet} (start : KeySet.Gathers before (some known))
    (parts : ∀ type ∈ types, ∀ part?, keysOf type = .ok part? → part?.Gathers (shapesOf type))
    (gathered : gatherKeys keysOf known types = .ok keys?) :
    keys?.Gathers (before ++ types.flatMap shapesOf) := by
  induction types generalizing known before with
  | nil =>
    cases gathered
    simpa using start
  | cons type rest ih =>
    unfold gatherKeys at gathered
    obtain ⟨part?, made, gathered⟩ := bind_eq_ok.1 gathered
    have ofPart := parts type (by simp) part? made
    rw [List.flatMap_cons, ← List.append_assoc]
    cases part? with
    | none =>
      obtain rfl := Except.ok.inj gathered
      obtain ⟨shape, inside, signature⟩ := ofPart
      exact ⟨shape, by simp [inside], signature⟩
    | some part =>
      refine ih ⟨fun shape inside => ?_, fun key => ?_⟩
        (fun type listed => parts type (List.mem_cons_of_mem _ listed)) gathered
      · exact (List.mem_append.1 inside).elim (start.1 shape) (ofPart.1 shape)
      · simp only [Text.mem_sortUnique, List.mem_append, start.2, ofPart.2, or_and_right, exists_or]

/-- The keys of a reference are gathered from the body of its definition and from the bases. -/
theorem exists_gatherKeys_of_reference {depth steps : Nat} {ctx : Context} {type : TypeId}
    {target : DefinitionId} {arguments : List TypeId} {definition : Definition} {keys? : KeySet}
    (found : ctx.arena.lookup? type = some (.reference target arguments))
    (known : ctx.arena.definition? target = some definition)
    (collected : collectKeysWithin depth (steps + 1) ctx type = .ok keys?) :
    ∃ (inside : Context) (body : TypeId), inside.arena = ctx.arena ∧ definition.body = some body ∧
      gatherKeys (collectKeysWithin depth steps inside) [] (body :: definition.bases) = .ok keys? := by
  unfold collectKeysWithin at collected
  obtain ⟨descriptor, found', collected⟩ := bind_eq_ok.1 collected
  obtain rfl := Except.ok.inj (found'.symm.trans (Arena.lookup_eq_ok.2 found))
  obtain ⟨definition', known', collected⟩ := bind_eq_ok.1 collected
  obtain rfl := Except.ok.inj (known'.symm.trans (Arena.target_eq_ok.2 known))
  obtain ⟨inside, entered, collected⟩ := bind_eq_ok.1 collected
  obtain ⟨body, given, gathered⟩ := bind_eq_ok.1 collected
  obtain ⟨substitution, -, made⟩ := bind_eq_ok.1 entered
  obtain rfl := Except.ok.inj made
  exact ⟨ctx.reading substitution, body, rfl, Definition.requireBody_eq_ok.1 given, gathered⟩

/-- The keys that are collected from a body and its bases are those of the shapes behind the definition.
-/
theorem KeySet.gathers_of_merged {arena : Arena} {depth count steps : Nat} {definition : Definition}
    {shape : ObjectShape} {inside : Context} {body : TypeId} {keys? : KeySet}
    (merged : mergedShapeWithin arena count definition = .ok shape) (here : inside.arena = arena)
    (given : definition.body = some body)
    (gathered : gatherKeys (collectKeysWithin depth steps inside) [] (body :: definition.bases) =
      .ok keys?) : keys?.Gathers (arena.shapesWithin count definition) := by
  induction count generalizing definition shape inside body steps keys? with
  | zero => cases merged
  | succ count ih =>
    obtain ⟨body', own, given', found, -⟩ := mergedShapeWithin_eq_ok merged
    obtain rfl := Option.some.inj (given.symm.trans given')
    unfold gatherKeys at gathered
    obtain ⟨part?, made, gathered⟩ := bind_eq_ok.1 gathered
    cases steps with
    | zero =>
      obtain ⟨_, _, thrown⟩ := bind_eq_ok.1 made
      cases thrown
    | succ steps =>
      unfold collectKeysWithin at made
      rw [Arena.lookup_eq_ok.2 (here ▸ found)] at made
      obtain rfl := Except.ok.inj made
      rw [shapesWithin_succ given found, ← List.singleton_append]
      cases signature : own.index with
      | some part =>
        rw [signature] at gathered
        obtain rfl := Except.ok.inj gathered
        exact ⟨own, by simp, by simp [signature]⟩
      | none =>
        rw [signature] at gathered
        refine gathers_gatherKeys ⟨by simp [signature], by simp [Text.mem_sortUnique]⟩
          (fun base listed part? made => ?_) gathered
        -- a base is entered and its own body and bases are asked
        obtain ⟨target, arguments, inner, inherited, leads, known, below⟩ :=
          exists_merged_of_mem_bases merged listed
        rw [baseShapes_of_reference leads known]
        subst here
        obtain ⟨home, innerBody, there, innerGiven, gathered⟩ :=
          exists_gatherKeys_of_reference leads known made
        exact ih below there innerGiven gathered

/-! ## The keys of the merged shape -/

/-- Among several shapes, the first declaration of a name is one of a symbol. -/
def ObjectShape.Hides (shapes : List ObjectShape) (name : String) : Prop :=
  ∃ property, shapes.findSome? (·.property? name) = some property ∧ property.symbolKeyed = true

theorem ObjectShape.mem_properties_inherit {shape inherited : ObjectShape} {property : Property}
    (inside : property ∈ (shape.inherit inherited).properties) :
    property ∈ shape.properties ∨ property ∈ inherited.properties := by
  have folded (added known : List Property)
      (inside : property ∈ added.foldl (fun known property =>
        if known.any (·.name == property.name) then known else known ++ [property]) known) :
      property ∈ known ∨ property ∈ added := by
    induction added generalizing known with
    | nil => exact .inl inside
    | cons first rest ih =>
      rcases ih _ inside with old | new
      · by_cases taken : known.any (·.name == first.name) = true
        · exact .inl (by simpa [taken] using old)
        · have known : property ∈ known ∨ property = first := by simpa [taken] using old
          exact known.imp_right fun (same : property = first) => same ▸ List.mem_cons_self
      · exact .inr (List.mem_cons_of_mem _ new)
  exact folded inherited.properties shape.properties inside

/-- Members are merged from the shapes of the definitions. -/
theorem mem_properties_of_merged {arena : Arena} {count : Nat} {definition : Definition}
    {shape : ObjectShape} (merged : mergedShapeWithin arena count definition = .ok shape)
    {property : Property} (inside : property ∈ shape.properties) :
    ∃ other ∈ arena.shapesWithin count definition, property ∈ other.properties := by
  induction count generalizing definition shape property with
  | zero => cases merged
  | succ count ih =>
    obtain ⟨body, own, given, found, folded⟩ := mergedShapeWithin_eq_ok merged
    rw [shapesWithin_succ given found]
    -- on the bases that are left: what was merged before comes from the shapes before them
    have bases (left : List TypeId) (before : ObjectShape) (shapes : List ObjectShape)
        (earlier : ∀ property ∈ before.properties, ∃ other ∈ shapes, property ∈ other.properties)
        (folded : left.foldlM (arena.inheritBase count) before = .ok shape) :
        ∃ other ∈ shapes ++ left.flatMap (arena.baseShapes count), property ∈ other.properties := by
      induction left generalizing before shapes with
      | nil =>
        cases folded
        simpa using earlier property inside
      | cons base rest onwards =>
        rw [List.foldlM_cons] at folded
        obtain ⟨after, made, folded⟩ := bind_eq_ok.1 folded
        obtain ⟨target, arguments, inner, inherited, leads, known, below, rfl⟩ := inheritBase_eq_ok made
        rw [List.flatMap_cons, baseShapes_of_reference leads known, ← List.append_assoc]
        refine onwards _ _ (fun member listed => ?_) folded
        rcases ObjectShape.mem_properties_inherit listed with old | new
        · obtain ⟨other, there, declares⟩ := earlier member old
          exact ⟨other, List.mem_append_left _ there, declares⟩
        · obtain ⟨other, there, declares⟩ := ih below new
          exact ⟨other, List.mem_append_right _ there, declares⟩
    exact bases definition.bases own [own] (fun property inside => ⟨own, by simp, inside⟩) folded

/-- The keys of the merged shape are those of the shapes behind the definition, unless symbols hide some.
-/
theorem ObjectShape.mem_keys_of_merged {arena : Arena} {count : Nat} {definition : Definition}
    {shape : ObjectShape} (merged : mergedShapeWithin arena count definition = .ok shape) {key : String}
    (visible : ¬ Hides (arena.shapesWithin count definition) key) :
    key ∈ shape.keys ↔ ∃ other ∈ arena.shapesWithin count definition, key ∈ other.keys := by
  have search := mergedShapeWithin_search merged
  constructor
  · intro inside
    obtain ⟨property, declared, texts, rfl⟩ := mem_keys.1 inside
    obtain ⟨other, there, declares⟩ := mem_properties_of_merged merged declared
    exact ⟨other, there, mem_keys.2 ⟨property, declares, texts, rfl⟩⟩
  · rintro ⟨other, there, inside⟩
    obtain ⟨declaration, declares, -, rfl⟩ := mem_keys.1 inside
    -- the name is declared, so some declaration of it is the first one
    have declared : (arena.shapesWithin count definition).findSome? (·.property? declaration.name) ≠
        none := by
      rw [Ne, List.findSome?_eq_none_iff]
      intro silent
      have undeclared := silent other there
      simp only [property?, List.find?_eq_none] at undeclared
      exact undeclared declaration declares (by simp)
    obtain ⟨property, first⟩ := Option.ne_none_iff_exists'.1 declared
    have found : shape.property? declaration.name = some property := (search.property? _).trans first
    have texts : property.symbolKeyed = false := by
      by_contra symbol
      exact visible ⟨property, first, by simpa using symbol⟩
    refine mem_keys.2 ⟨property, List.mem_of_find?_eq_some found, texts, ?_⟩
    simpa using List.find?_some found

/-! ## The keys of a reference -/

/-- The keys that are collected from a reference are those that its object check allows: they are open if
the merged shape has an index signature, and otherwise they are the keys to which an exact check restricts
the object, unless a symbol hides one of them. -/
theorem Context.collectKeys_eq_keys {ctx : Context} {depth : Nat} {type : TypeId} {target : DefinitionId}
    {arguments : List TypeId} {definition : Definition} {shape : ObjectShape} {keys? : KeySet}
    (found : ctx.arena.lookup? type = some (.reference target arguments))
    (known : ctx.arena.definition? target = some definition)
    (merged : ctx.arena.mergedShape definition = .ok shape)
    (collected : ctx.collectKeys depth type = .ok keys?) :
    (keys? = none ↔ shape.index.isSome) ∧
      ∀ keys, keys? = some keys →
        (∀ other ∈ ctx.arena.shapes definition, ∀ key ∈ other.keys,
          ¬ ObjectShape.Hides (ctx.arena.shapes definition) key) →
        keys = shape.keys ∧ ∀ compile inside, inside.exact = true →
          keyLoop compile inside shape = pure [exactKeysLoop keys] := by
  have search : shape.IsSearch (ctx.arena.shapes definition) := mergedShapeWithin_search merged
  obtain ⟨inside, body, here, given, gathered⟩ :
      ∃ (inside : Context) (body : TypeId), inside.arena = ctx.arena ∧ definition.body = some body ∧
        gatherKeys (collectKeysWithin depth 63 inside) [] (body :: definition.bases) = .ok keys? :=
    exists_gatherKeys_of_reference found known collected
  have gathers : keys?.Gathers (ctx.arena.shapes definition) :=
    KeySet.gathers_of_merged merged here given gathered
  cases keys? with
  | none =>
    obtain ⟨other, there, signature⟩ := gathers
    refine ⟨iff_of_true rfl ?_, nofun⟩
    rw [search.index, List.findSome?_isSome_iff]
    exact ⟨other, there, signature⟩
  | some keys =>
    have unsigned : shape.index = none := by
      rw [search.index, List.findSome?_eq_none_iff]
      exact gathers.1
    refine ⟨by simp [unsigned], fun keys' same visible => ?_⟩
    obtain rfl := Option.some.inj same
    have allowed : keys = shape.keys := by
      refine Text.eq_of_mem_iff (pairwise_gatherKeys .nil gathered) (Text.pairwise_sortUnique _)
        fun key => ?_
      rw [gathers.2]
      by_cases declared : ∃ other ∈ ctx.arena.shapes definition, key ∈ other.keys
      · obtain ⟨other, there, declares⟩ := declared
        exact (ObjectShape.mem_keys_of_merged merged (visible other there key declares)).symm
      · refine iff_of_false declared fun inside => declared ?_
        obtain ⟨property, member, texts, rfl⟩ := ObjectShape.mem_keys.1 inside
        obtain ⟨other, there, declares⟩ := mem_properties_of_merged merged member
        exact ⟨other, there, ObjectShape.mem_keys.2 ⟨property, declares, texts, rfl⟩⟩
    refine ⟨allowed, fun compile inside exact => ?_⟩
    simp [keyLoop, unsigned, exact, allowed]

/-! ## A key of a base -/

/-- `User` has an id and extends `Named`, which has a name. The last type is `User`. -/
def users : Arena where
  descriptors := Arena.initial.descriptors ++
    #[.object ⟨[⟨"name", some (.ofKeyword .string), false, false, false⟩], none⟩, .reference ⟨0⟩ [],
      .object ⟨[⟨"id", some (.ofKeyword .number), false, false, false⟩], none⟩, .reference ⟨1⟩ []]
  parameters := #[]
  definitions := #[⟨"Named", [], some ⟨14⟩, []⟩, ⟨"User", [], some ⟨16⟩, [⟨15⟩]⟩]

/-- The key of the base comes with the own one, both in the collected keys and in the object check. -/
theorem collectKeys_eq_keys_users : (Context.root users {}).collectKeys 0 ⟨17⟩ = .ok (some ["id", "name"]) ∧
    ∀ compile inside, inside.exact = true →
      keyLoop compile inside ⟨[⟨"id", some (.ofKeyword .number), false, false, false⟩,
          ⟨"name", some (.ofKeyword .string), false, false, false⟩], none⟩ =
        pure [exactKeysLoop ["id", "name"]] := by
  have merged : users.mergedShape ⟨"User", [], some ⟨16⟩, [⟨15⟩]⟩ =
      .ok ⟨[⟨"id", some (.ofKeyword .number), false, false, false⟩,
        ⟨"name", some (.ofKeyword .string), false, false, false⟩], none⟩ := by rfl
  have shapes : users.shapes ⟨"User", [], some ⟨16⟩, [⟨15⟩]⟩ =
      [⟨[⟨"id", some (.ofKeyword .number), false, false, false⟩], none⟩,
        ⟨[⟨"name", some (.ofKeyword .string), false, false, false⟩], none⟩] := by rfl
  have known : (Context.root users {}).arena.definition? ⟨1⟩ =
      some ⟨"User", [], some ⟨16⟩, [⟨15⟩]⟩ := rfl
  have collected : (Context.root users {}).collectKeys 0 ⟨17⟩ = .ok (some ["id", "name"]) := by rfl
  obtain ⟨-, closed⟩ := Context.collectKeys_eq_keys rfl known merged collected
  refine ⟨collected, (closed _ rfl ?_).2⟩
  rw [show (Context.root users {}).arena = users from rfl, shapes]
  simp [ObjectShape.Hides, ObjectShape.property?, ObjectShape.keys, Text.sortUnique, Text.insertSorted]

/-! ## A symbol in front of a text -/

/-- `Tagged` has a text `tag`. `Sealed` extends it and declares a symbol of this name. The last types are
`Sealed` and the keys of it. -/
def sealedTags : Arena where
  descriptors := Arena.initial.descriptors ++
    #[.object ⟨[⟨"tag", some (.ofKeyword .string), false, false, false⟩], none⟩, .reference ⟨0⟩ [],
      .object ⟨[⟨"tag", some (.ofKeyword .string), false, false, true⟩], none⟩, .reference ⟨1⟩ [],
      .keyof ⟨17⟩]
  parameters := #[]
  definitions := #[⟨"Tagged", [], some ⟨14⟩, []⟩, ⟨"Sealed", [], some ⟨16⟩, [⟨15⟩]⟩]

/-- The text is a key of the type, but the merged shape has the symbol instead, and the exact check rejects
an object with this key. -/
theorem exists_hidden_key :
    ∃ (arena : Arena) (definition : Definition) (shape : ObjectShape) (keys exact : Validator),
      arena.lookup? ⟨17⟩ = some (.reference ⟨1⟩ []) ∧ arena.definition? ⟨1⟩ = some definition ∧
        arena.mergedShape definition = .ok shape ∧
          (Context.root arena {}).collectKeys 0 ⟨17⟩ = .ok (some ["tag"]) ∧ shape.index = none ∧
            shape.keys = [] ∧ arena.compile ⟨18⟩ {} = .ok keys ∧
              arena.compile ⟨17⟩ { superfluousPropertyCheck := true } = .ok exact ∧
                keys.accepts (.string "tag") = true ∧
                  exact.accepts (.object [("tag", .string "a")]) = false := by
  have keysCompile : ((sealedTags.compile ⟨18⟩ {}).toOption.map fun v => v.accepts (.string "tag")) =
      some true := by decide
  have exactCompiles : ((sealedTags.compile ⟨17⟩ { superfluousPropertyCheck := true }).toOption.map
      fun v => v.accepts (.object [("tag", .string "a")])) = some false := by decide
  obtain ⟨keys, keysCompiled, accepts⟩ := Option.map_eq_some_iff.1 keysCompile
  obtain ⟨exact, exactCompiled, rejects⟩ := Option.map_eq_some_iff.1 exactCompiles
  rw [toOption_eq_some] at keysCompiled exactCompiled
  exact ⟨sealedTags, ⟨"Sealed", [], some ⟨16⟩, [⟨15⟩]⟩,
    ⟨[⟨"tag", some (.ofKeyword .string), false, false, true⟩], none⟩, keys, exact, rfl, rfl, rfl, rfl, rfl,
    rfl, keysCompiled, exactCompiled, accepts, rejects⟩

end ShapeCheck
