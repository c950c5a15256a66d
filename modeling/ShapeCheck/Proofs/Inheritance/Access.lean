import ShapeCheck.Compile.Basic
import ShapeCheck.Proofs.Failing
import ShapeCheck.Proofs.Inheritance.Chains

set_option autoImplicit false

/-! # Members that are inherited

An access to a member of a reference asks the body of its definition, then the bases one after the other,
and each of them in its own instantiation. Among the shapes behind the definition, the nearest first,
that is the first one that answers: one that declares the key, unless as a method, or has an index
signature. The object check looks at the merged shape instead, where the first shape that declares the
key decides, and index signatures stand back behind all declarations.

The two agree unless a shape with an index signature hides a declaration further away, or a method hides
one: `ObjectShape.Agree` says that this is not so.

Main facts: `searched_reference` and `Context.compile_inheritedAccess`.
-/

namespace ShapeCheck

/-! ## Entering -/

/-- Instantiations or steps were nested too deeply. -/
def CompileError.IsTooDeep (e : CompileError) : Prop := ∃ name limit, e = .instantiationTooDeep name limit

theorem Instantiation.onlyTooDeep_bindBases (arena : Arena) (steps : Nat) (bindings : Instantiation)
    (definition : Definition) :
    OnlyErrors CompileError.IsTooDeep (bindBases arena steps bindings definition) := by
  induction steps generalizing bindings definition with
  | zero => exact .error ⟨_, _, rfl⟩
  | succ steps ih =>
    unfold bindBases
    refine OnlyErrors.foldlM (fun bindings base _ => ?_) _
    split
    · split
      · exact ih _ _
      · exact .ok _
    · exact .ok _

/-- A reference can be entered unless it is nested too deeply. -/
theorem Context.onlyTooDeep_enter (ctx : Context) (definition : Definition) (arguments : List TypeId) :
    OnlyErrors CompileError.IsTooDeep (ctx.enter definition arguments) := by
  have entered : OnlyErrors CompileError.IsTooDeep
      (ctx.substitution.enter ctx.arena definition arguments) := by
    refine (Instantiation.onlyTooDeep_bindBases _ _ _ _).bind fun bindings _ => ?_
    split
    · exact .ok _
    · split
      · exact .error ⟨_, _, rfl⟩
      · exact .ok _
  exact entered.bind fun _ _ => .ok _

/-! ## Shapes in their contexts -/

/-- Behind a reference, after some other shapes, comes one that is read in a context of its own: the one
that the references which lead to it lead to. -/
inductive Context.Inherits : Nat → Context → TypeId → List ObjectShape → ObjectShape → Context → Prop
  | own {steps : Nat} {ctx home : Context} {type body : TypeId} {target : DefinitionId}
      {arguments : List TypeId} {definition : Definition} {shape : ObjectShape}
      (found : ctx.arena.lookup? type = some (.reference target arguments))
      (known : ctx.arena.definition? target = some definition)
      (entered : ctx.enter definition arguments = .ok home) (given : definition.body = some body)
      (declared : ctx.arena.lookup? body = some (.object shape)) :
      Inherits (steps + 1) ctx type [] shape home
  | base {steps : Nat} {ctx inside home : Context} {type body base : TypeId} {target : DefinitionId}
      {arguments passed later : List TypeId} {definition : Definition} {own shape : ObjectShape}
      {before : List ObjectShape} (found : ctx.arena.lookup? type = some (.reference target arguments))
      (known : ctx.arena.definition? target = some definition)
      (entered : ctx.enter definition arguments = .ok inside) (given : definition.body = some body)
      (declared : ctx.arena.lookup? body = some (.object own))
      (listed : definition.bases = passed ++ base :: later)
      (inherits : Inherits steps inside base before shape home) :
      Inherits (steps + 1) ctx type (own :: passed.flatMap (ctx.arena.baseShapes steps) ++ before) shape
        home

/-- Nothing follows an error. -/
theorem Build.throw_bind {α β : Type} (e : CompileError) (f : α → Build β) :
    ((throw e : Build α) >>= f) = throw e := rfl

/-! ## Answers -/

namespace ObjectShape

/-- The shape has a member under the key, as an access sees it: a method is none. -/
def Answers (shape : ObjectShape) (key : String) : Prop :=
  match shape.property? key with
  | some property => property.method = false
  | none => shape.index.isSome = true

/-- Among some shapes, the nearest first, no index signature comes before a declaration of the key, and
behind a method of that name nothing answers. -/
def Agree (key : String) : List ObjectShape → Prop
  | [] => True
  | shape :: rest =>
    match shape.property? key with
    | some property => property.method = true → ∀ other ∈ rest, ¬ other.Answers key
    | none => (shape.index.isSome = true → ∀ other ∈ rest, other.property? key = none) ∧ Agree key rest

end ObjectShape

section
variable {compile : Context → TypeId → Build String} {ctx home : Context} {shape : ObjectShape}
  {key : String}

theorem objectMembers_of_not_answers (h : ¬ shape.Answers key) :
    objectMembers compile ctx shape (.name key) = pure [] := by
  unfold ObjectShape.Answers at h
  unfold objectMembers
  cases declared : shape.property? key with
  | some property =>
    have method : property.method = true := by simpa [declared] using h
    simp [declared, method]
  | none =>
    have closed : shape.index = none := by simpa [declared] using h
    simp [declared, closed]

/-- What a shape answers with is not nothing. -/
theorem objectMembers_bind_of_answers (h : shape.Answers key) (otherwise : Build (List String)) :
    (do
      let found ← objectMembers compile ctx shape (.name key)
      if found.isEmpty then otherwise else return found) =
      objectMembers compile ctx shape (.name key) := by
  unfold ObjectShape.Answers at h
  unfold objectMembers
  cases declared : shape.property? key with
  | some property =>
    have field : property.method = false := by simpa [declared] using h
    cases typed : property.type with
    | none => simp [declared, field, typed]
    | some type => simp [declared, field, typed]
  | none =>
    obtain ⟨type, index⟩ : ∃ type, shape.index = some type := by
      simpa [declared, Option.isSome_iff_exists] using h
    simp [declared, index]

end

/-! ## The walk -/

section
variable {compile : Context → TypeId → Build String} {key : String}

/-- How a search for a member of a reference with these shapes can end. -/
inductive Searched (compile : Context → TypeId → Build String) (key : String) (steps : Nat)
    (ctx : Context) (type : TypeId) (shapes : List ObjectShape) (search : Build (List String)) : Prop
  | stopped {e : CompileError} (deep : e.IsTooDeep) (same : search = throw e)
  | nothing (silent : ∀ shape ∈ shapes, ¬ shape.Answers key) (same : search = pure [])
  | found {before later : List ObjectShape} {shape : ObjectShape} {home : Context}
      (listed : shapes = before ++ shape :: later)
      (inherits : ctx.Inherits steps type before shape home) (answers : shape.Answers key)
      (silent : ∀ earlier ∈ before, ¬ earlier.Answers key)
      (same : search = objectMembers compile home shape (.name key))

/-- How a search through several bases can end. -/
inductive SearchedBases (compile : Context → TypeId → Build String) (key : String) (steps : Nat)
    (ctx : Context) (bases : List TypeId) (search : Build (List String)) : Prop
  | stopped {e : CompileError} (deep : e.IsTooDeep) (same : search = throw e)
  | nothing (silent : ∀ shape ∈ bases.flatMap (ctx.arena.baseShapes steps), ¬ shape.Answers key)
      (same : search = pure [])
  | found {passed others : List TypeId} {base : TypeId} {before later : List ObjectShape}
      {shape : ObjectShape} {home : Context} (split : bases = passed ++ base :: others)
      (listed : ctx.arena.baseShapes steps base = before ++ shape :: later)
      (inherits : ctx.Inherits steps base before shape home) (answers : shape.Answers key)
      (silent : ∀ earlier ∈ passed.flatMap (ctx.arena.baseShapes steps) ++ before, ¬ earlier.Answers key)
      (same : search = objectMembers compile home shape (.name key))

/-- A search through bases goes on where a base has nothing. -/
theorem searched_bases {steps : Nat} {ctx : Context} {bases : List TypeId}
    (each : ∀ base ∈ bases, Searched compile key steps ctx base (ctx.arena.baseShapes steps base)
      (membersWithin compile (.name key) steps ctx base)) :
    SearchedBases compile key steps ctx bases
      (firstNonempty (membersWithin compile (.name key) steps ctx) bases) := by
  induction bases with
  | nil => exact .nothing nofun rfl
  | cons base rest ih =>
    unfold firstNonempty
    cases each base List.mem_cons_self with
    | stopped deep same =>
      refine .stopped deep ?_
      rw [same, Build.throw_bind]
    | found listed inherits answers silent same =>
      refine .found (List.nil_append _).symm listed inherits answers (by simpa using silent) ?_
      rw [same]
      exact objectMembers_bind_of_answers answers _
    | nothing silent same =>
      rw [same]
      simp only [pure_bind, List.isEmpty_nil, if_true]
      have onwards := ih fun other inside => each other (List.mem_cons_of_mem _ inside)
      cases onwards with
      | stopped deep same => exact .stopped deep same
      | nothing silent' same =>
        refine .nothing (fun shape inside => ?_) same
        rw [List.flatMap_cons] at inside
        rcases List.mem_append.1 inside with here | there
        · exact silent shape here
        · exact silent' shape there
      | @found passed others other before later shape home split listed inherits answers silent' same =>
        have split : base :: rest = (base :: passed) ++ other :: others := by rw [split, List.cons_append]
        refine .found split listed inherits answers (fun earlier inside => ?_) same
        rw [List.flatMap_cons, List.append_assoc] at inside
        rcases List.mem_append.1 inside with here | there
        · exact silent earlier here
        · exact silent' earlier there

/-- A search for a member of a reference ends at the first shape that answers. -/
theorem searched_reference {steps : Nat} {ctx : Context} {type : TypeId} {target : DefinitionId}
    {arguments : List TypeId} {definition : Definition} {merged : ObjectShape}
    (found : ctx.arena.lookup? type = some (.reference target arguments))
    (known : ctx.arena.definition? target = some definition)
    (isMerged : mergedShapeWithin ctx.arena steps definition = .ok merged) :
    Searched compile key steps ctx type (ctx.arena.shapesWithin steps definition)
      (membersWithin compile (.name key) steps ctx type) := by
  induction steps generalizing ctx type target arguments definition merged with
  | zero => cases isMerged
  | succ steps ih =>
    obtain ⟨body, own, given, declared, -⟩ := mergedShapeWithin_eq_ok isMerged
    have looked : ctx.arena.lookup type = .ok (.reference target arguments) := Arena.lookup_eq_ok.2 found
    have aimed : ctx.arena.target type target = .ok definition := Arena.target_eq_ok.2 known
    have required : definition.requireBody = .ok body := Definition.requireBody_eq_ok.2 given
    cases entered : ctx.enter definition arguments with
    | error e =>
      refine .stopped (ctx.onlyTooDeep_enter definition arguments e entered) ?_
      simp [membersWithin, looked, aimed, entered]
    | ok inside =>
      have walk : membersWithin compile (.name key) (steps + 1) ctx type =
          firstNonempty (membersWithin compile (.name key) steps inside) (body :: definition.bases) := by
        simp [membersWithin, looked, aimed, entered, required]
      obtain ⟨s, -, opened⟩ := bind_eq_ok.1 entered
      have sameArena : inside.arena = ctx.arena := by rw [← Except.ok.inj opened]; rfl
      rw [walk, shapesWithin_succ given declared]
      cases steps with
      | zero =>
        -- the steps end at the body already
        have deep : CompileError.IsTooDeep
            (.instantiationTooDeep ("#" ++ toString body.index) maxResolutionSteps) := ⟨_, _, rfl⟩
        exact .stopped deep rfl
      | succ steps =>
        have atBody : membersWithin compile (.name key) (steps + 1) inside body =
            objectMembers compile inside own (.name key) := by
          have looked : inside.arena.lookup body = .ok (.object own) := by
            rw [Arena.lookup_eq_ok, sameArena]
            exact declared
          simp [membersWithin, looked]
        rw [firstNonempty, atBody]
        by_cases answers : own.Answers key
        · rw [objectMembers_bind_of_answers answers]
          exact .found rfl (.own found known entered given declared) answers nofun rfl
        · rw [objectMembers_of_not_answers answers]
          simp only [pure_bind, List.isEmpty_nil, if_true]
          have bases : SearchedBases compile key (steps + 1) inside definition.bases
              (firstNonempty (membersWithin compile (.name key) (steps + 1) inside) definition.bases) :=
            searched_bases fun base inside' => by
              obtain ⟨target', arguments', inner, inherited, leads, known', below⟩ :=
                exists_merged_of_mem_bases isMerged inside'
              rw [← sameArena] at leads known' below
              rw [baseShapes_of_reference leads known']
              exact ih leads known' below
          rw [← sameArena]
          cases bases with
          | stopped deep same => exact .stopped deep same
          | nothing silent same =>
            refine .nothing (fun shape inside' => ?_) same
            rcases List.mem_cons.1 inside' with rfl | there
            · exact answers
            · exact silent shape there
          | @found passed others base before later shape home split listed inherits answers' silent same =>
            have shapes : own :: definition.bases.flatMap (inside.arena.baseShapes (steps + 1)) =
                (own :: passed.flatMap (inside.arena.baseShapes (steps + 1)) ++ before) ++
                  shape :: (later ++ others.flatMap (inside.arena.baseShapes (steps + 1))) := by
              rw [split, List.flatMap_append, List.flatMap_cons, listed]
              simp
            have reads : ctx.Inherits (steps + 1 + 1) type
                (own :: passed.flatMap (inside.arena.baseShapes (steps + 1)) ++ before) shape home := by
              rw [sameArena]
              exact .base found known entered given declared split inherits
            refine .found shapes reads answers' (fun earlier inside' => ?_) same
            rw [List.cons_append] at inside'
            rcases List.mem_cons.1 inside' with rfl | there
            · exact answers
            · exact silent earlier there

end

/-! ## Where the walk and the merged shape agree -/

section
variable {key : String}

/-- The first shape that answers is the first that declares the key, or else none declares it. -/
theorem ObjectShape.Agree.before {before later : List ObjectShape} {own : ObjectShape}
    (agree : Agree key (before ++ own :: later)) (silent : ∀ earlier ∈ before, ¬ earlier.Answers key)
    (answers : own.Answers key) :
    (∀ earlier ∈ before, earlier.property? key = none ∧ earlier.index = none) ∧
      (own.property? key = none → ∀ other ∈ later, other.property? key = none) := by
  induction before with
  | nil =>
    refine ⟨nofun, fun undeclared => ?_⟩
    simp only [List.nil_append, Agree, undeclared] at agree
    have indexed : own.index.isSome = true := by simpa [Answers, undeclared] using answers
    exact agree.1 indexed
  | cons first rest ih =>
    have quiet := silent first List.mem_cons_self
    cases declared : first.property? key with
    | some property =>
      -- a method that hides a shape with an answer
      have method : property.method = true := by simpa [Answers, declared] using quiet
      simp only [List.cons_append, Agree, declared] at agree
      exact absurd answers (agree method own (by simp))
    | none =>
      have closed : first.index = none := by simpa [Answers, declared] using quiet
      simp only [List.cons_append, Agree, declared] at agree
      obtain ⟨all, last⟩ := ih agree.2 fun earlier inside => silent earlier (List.mem_cons_of_mem _ inside)
      refine ⟨fun earlier inside => ?_, last⟩
      rcases List.mem_cons.1 inside with rfl | there
      · exact ⟨declared, closed⟩
      · exact all earlier there

variable {merged : ObjectShape} {shapes : List ObjectShape}

/-- If no shape answers, the merged shape has a method under the key or nothing. -/
theorem ObjectShape.IsSearch.of_silent (search : merged.IsSearch shapes)
    (silent : ∀ shape ∈ shapes, ¬ shape.Answers key) :
    (∀ property, merged.property? key = some property → property.method = true) ∧
      (merged.property? key = none → merged.index = none) := by
  constructor
  · intro property declared
    rw [search.property?] at declared
    obtain ⟨shape, inside, declared⟩ := List.exists_of_findSome?_eq_some declared
    have quiet := silent shape inside
    simpa [Answers, declared] using quiet
  · intro undeclared
    rw [search.property?, List.findSome?_eq_none_iff] at undeclared
    rw [search.index, List.findSome?_eq_none_iff]
    intro shape inside
    have quiet := silent shape inside
    simpa [Answers, undeclared shape inside] using quiet

/-- If some shape answers and the shapes agree, the merged shape says what the first of them says. -/
theorem ObjectShape.IsSearch.of_answers {before later : List ObjectShape} {own : ObjectShape}
    (search : merged.IsSearch (before ++ own :: later)) (agree : Agree key (before ++ own :: later))
    (silent : ∀ earlier ∈ before, ¬ earlier.Answers key) (answers : own.Answers key) :
    merged.property? key = own.property? key ∧
      (own.property? key = none → merged.index = own.index) := by
  obtain ⟨earlier, last⟩ := agree.before silent answers
  have noMember : before.findSome? (·.property? key) = none :=
    List.findSome?_eq_none_iff.2 fun shape inside => (earlier shape inside).1
  have noIndex : before.findSome? ObjectShape.index = none :=
    List.findSome?_eq_none_iff.2 fun shape inside => (earlier shape inside).2
  rw [search.property?, search.index, List.findSome?_append, List.findSome?_append, noMember, noIndex,
    Option.none_or, Option.none_or, List.findSome?_cons, List.findSome?_cons]
  constructor
  · cases declared : own.property? key with
    | some property => rfl
    | none => exact List.findSome?_eq_none_iff.2 (last declared)
  · intro undeclared
    obtain ⟨part, indexed⟩ : ∃ part, own.index = some part := by
      simpa [Answers, undeclared, Option.isSome_iff_exists] using answers
    rw [indexed]

end

/-! ## Accesses -/

section
variable {depth : Nat} {compile : Context → TypeId → Build String} {ctx : Context}
  {access type index : TypeId} {key : String}

/-- An access with a single key is compiled as what the search for this key finds. -/
theorem compileIndexAccess_of_key (isKey : ctx.arena.lookup? index = some (.stringLiteral key)) :
    compileIndexAccess depth compile ctx access type index = (do
      let found ← selectedMembers depth compile ctx access type (.name key)
      match found.eraseDups with
      | [] => throw (.unsupportedType access "indexed access with an empty index")
      | [name] => return name
      | names =>
        Build.ensureExpr (← ctx.nameOf depth access) none do return .or (names.map Expr.callOn)) := by
  have looked : ctx.arena.lookup index = .ok (.stringLiteral key) := Arena.lookup_eq_ok.2 isKey
  have keys : ctx.indexKeys depth index = .ok [.name key] := by
    show indexKeysWithin depth (63 + 1) ctx index = _
    rw [indexKeysWithin, looked]
    rfl
  unfold compileIndexAccess
  rw [keys, Build.liftM_ok, pure_bind]
  simp only [List.mapM_cons, List.mapM_nil, bind_assoc, pure_bind, List.flatten_cons, List.flatten_nil,
    List.append_nil] <;> rfl

/-- An access to nothing is rejected. -/
theorem compileIndexAccess_of_nothing (isKey : ctx.arena.lookup? index = some (.stringLiteral key))
    (same : membersWithin compile (.name key) maxResolutionSteps ctx type = pure []) :
    ∃ e, compileIndexAccess depth compile ctx access type index = throw e := by
  rw [compileIndexAccess_of_key isKey]
  simp only [selectedMembers, same, pure_bind, List.isEmpty_nil, if_true]
  cases ctx.nameOf depth access with
  | error e => exact ⟨e, rfl⟩
  | ok name => exact ⟨_, rfl⟩

/-- An access to one member is compiled as this member. -/
theorem compileIndexAccess_of_single (isKey : ctx.arena.lookup? index = some (.stringLiteral key))
    {member : Build String}
    (same : membersWithin compile (.name key) maxResolutionSteps ctx type = do return [← member]) :
    compileIndexAccess depth compile ctx access type index = member := by
  rw [compileIndexAccess_of_key isKey]
  have single (name : String) : [name].eraseDups = [name] := rfl
  simp [selectedMembers, same, single]

variable {target : DefinitionId} {arguments : List TypeId} {definition : Definition} {shape : ObjectShape}

/-- An access to a member of a reference, where the shapes behind the reference agree: if the merged shape
declares the key, the access is compiled as that declaration says, in the context of the definition that
makes it, or is rejected if it is a method. If no shape declares the key, the index signature of the
merged shape decides, and without one the access is rejected. The access may also be nested too deeply. -/
theorem Context.compile_inheritedAccess
    (isAccess : ctx.arena.lookup? access = some (.indexAccess type index))
    (isKey : ctx.arena.lookup? index = some (.stringLiteral key))
    (found : ctx.arena.lookup? type = some (.reference target arguments))
    (known : ctx.arena.definition? target = some definition)
    (merged : ctx.arena.mergedShape definition = .ok shape)
    (agree : ObjectShape.Agree key (ctx.arena.shapes definition)) :
    (∃ e, e.IsTooDeep ∧ compileWithin (depth + 1) ctx access = throw e) ∨
      match shape.property? key with
      | some property =>
        if property.method then ∃ e, compileWithin (depth + 1) ctx access = throw e
        else ∀ part, property.type = some part →
          ∃ before own home, ctx.Inherits maxResolutionSteps type before own home ∧
            own.property? key = some property ∧ (∀ earlier ∈ before, earlier.property? key = none) ∧
              compileWithin (depth + 1) ctx access =
                compilePart (compileWithin depth) home part property.optional
      | none =>
        (∀ other ∈ ctx.arena.shapes definition, other.property? key = none) ∧
          match shape.index with
          | some part =>
            ∃ before own home, ctx.Inherits maxResolutionSteps type before own home ∧
              own.index = some part ∧ (∀ earlier ∈ before, earlier.index = none) ∧
                compileWithin (depth + 1) ctx access = compileWithin depth home part
          | none => ∃ e, compileWithin (depth + 1) ctx access = throw e := by
  have compiled : compileWithin (depth + 1) ctx access =
      compileIndexAccess depth (compileWithin depth) ctx access type index := by
    have looked : ctx.arena.lookup access = .ok (.indexAccess type index) := Arena.lookup_eq_ok.2 isAccess
    simp [compileWithin, looked, compileDescriptor, Descriptor.leaf?]
  rw [compiled]
  have search : shape.IsSearch (ctx.arena.shapes definition) := mergedShapeWithin_search merged
  have undeclared (none : shape.property? key = none) :
      ∀ other ∈ ctx.arena.shapes definition, other.property? key = Option.none := by
    rw [search.property?] at none
    exact List.findSome?_eq_none_iff.1 none
  have searched : Searched (compileWithin depth) key maxResolutionSteps ctx type
      (ctx.arena.shapes definition)
      (membersWithin (compileWithin depth) (.name key) maxResolutionSteps ctx type) :=
    searched_reference found known merged
  cases searched with
  | @stopped e deep same =>
    refine .inl ⟨e, deep, ?_⟩
    rw [compileIndexAccess_of_key isKey, selectedMembers, same]
    rfl
  | nothing silent same =>
    right
    obtain ⟨methods, closed⟩ := search.of_silent silent
    have rejected : ∃ e, compileIndexAccess depth (compileWithin depth) ctx access type index = throw e :=
      compileIndexAccess_of_nothing isKey same
    cases declared : shape.property? key with
    | some property =>
      simp only [methods property declared, if_true]
      exact rejected
    | none =>
      refine ⟨undeclared declared, ?_⟩
      rw [closed declared]
      exact rejected
  | @found before later own home listed inherits answers silent same =>
    right
    have agree : ObjectShape.Agree key (before ++ own :: later) := listed ▸ agree
    obtain ⟨member, signature⟩ := (listed ▸ search).of_answers agree silent answers
    obtain ⟨earlier, -⟩ := agree.before silent answers
    unfold objectMembers at same
    unfold ObjectShape.Answers at answers
    cases declared : own.property? key with
    | some property =>
      have field : property.method = false := by simpa [declared] using answers
      rw [member, declared]
      simp only [field, Bool.false_eq_true, if_false]
      intro part typed
      refine ⟨before, own, home, inherits, declared, fun shape inside => (earlier shape inside).1, ?_⟩
      exact compileIndexAccess_of_single isKey (by simpa [declared, field, typed] using same)
    | none =>
      obtain ⟨part, indexed⟩ : ∃ part, own.index = some part := by
        simpa [declared, Option.isSome_iff_exists] using answers
      rw [member, declared]
      refine ⟨undeclared (member.trans declared), ?_⟩
      rw [signature declared, indexed]
      refine ⟨before, own, home, inherits, indexed, fun shape inside => (earlier shape inside).2, ?_⟩
      exact compileIndexAccess_of_single isKey (by simpa [declared, indexed] using same)

end

/-! ## An optional member of a base -/

/-- `Shelf` has a depth and extends `Labelled<string>`, where `Labelled<T>` has an optional label of type
`T`. The last type is `Shelf["label"]`. -/
def shelves : Arena where
  descriptors := Arena.initial.descriptors ++
    #[.parameter ⟨0⟩, .object ⟨[⟨"label", some ⟨14⟩, true, false, false⟩], none⟩,
      .reference ⟨0⟩ [.ofKeyword .string],
      .object ⟨[⟨"depth", some (.ofKeyword .number), false, false, false⟩], none⟩, .reference ⟨1⟩ [],
      .stringLiteral "label", .indexAccess ⟨18⟩ ⟨19⟩]
  parameters := #[⟨"T", none⟩]
  definitions := #[⟨"Labelled", [⟨0⟩], some ⟨15⟩, []⟩, ⟨"Shelf", [], some ⟨17⟩, [⟨16⟩]⟩]

/-- What `Shelf` declares. -/
def shelf : Definition := ⟨"Shelf", [], some ⟨17⟩, [⟨16⟩]⟩

/-- The label of a shelf is what `Labelled` declares, inside of `Labelled<string>`, and optional. -/
theorem compile_inheritedAccess_shelf :
    ∃ before own home, (Context.root shelves {}).Inherits maxResolutionSteps ⟨18⟩ before own home ∧
      own.property? "label" = some ⟨"label", some ⟨14⟩, true, false, false⟩ ∧
        (∀ earlier ∈ before, earlier.property? "label" = none) ∧
          compileWithin (4 + 1) (Context.root shelves {}) ⟨20⟩ =
            compilePart (compileWithin 4) home ⟨14⟩ true := by
  have merged : shelves.mergedShape shelf = .ok ⟨[⟨"depth", some (.ofKeyword .number), false, false, false⟩,
      ⟨"label", some ⟨14⟩, true, false, false⟩], none⟩ := by rfl
  have shapes : shelves.shapes shelf =
      [⟨[⟨"depth", some (.ofKeyword .number), false, false, false⟩], none⟩,
        ⟨[⟨"label", some ⟨14⟩, true, false, false⟩], none⟩] := by rfl
  have agree : ObjectShape.Agree "label" (shelves.shapes shelf) := by
    rw [shapes]
    simp [ObjectShape.Agree, ObjectShape.property?]
  have built : ((compileWithin (4 + 1) (Context.root shelves {}) ⟨20⟩).run.run .empty).1.toOption =
      some "optional<string>" := by decide
  have access : (Context.root shelves {}).arena.lookup? ⟨20⟩ = some (.indexAccess ⟨18⟩ ⟨19⟩) := rfl
  rcases Context.compile_inheritedAccess access rfl rfl rfl merged agree with ⟨e, -, stopped⟩ | member
  · rw [stopped] at built
    cases built
  · exact member ⟨14⟩ rfl

/-! ## An index signature in front of a declaration -/

/-- `Shelf` has an index signature of numbers and extends `Labelled`, which has a label that is a text.
The last type is `Shelf["label"]`. -/
def signedShelves : Arena where
  descriptors := Arena.initial.descriptors ++
    #[.object ⟨[⟨"label", some (.ofKeyword .string), false, false, false⟩], none⟩, .reference ⟨0⟩ [],
      .object ⟨[], some (.ofKeyword .number)⟩, .reference ⟨1⟩ [], .stringLiteral "label",
      .indexAccess ⟨17⟩ ⟨18⟩]
  parameters := #[]
  definitions := #[⟨"Labelled", [], some ⟨14⟩, []⟩, ⟨"Shelf", [], some ⟨16⟩, [⟨15⟩]⟩]

/-- The access finds the index signature of the definition before the member that it inherits, although
the merged shape declares the member. -/
theorem exists_inheritedAccess_of_signature :
    ∃ (arena : Arena) (definition : Definition) (shape : ObjectShape) (v : Validator),
      arena.lookup? ⟨19⟩ = some (.indexAccess ⟨17⟩ ⟨18⟩) ∧
        arena.lookup? ⟨18⟩ = some (.stringLiteral "label") ∧
          arena.lookup? ⟨17⟩ = some (.reference ⟨1⟩ []) ∧ arena.definition? ⟨1⟩ = some definition ∧
            arena.mergedShape definition = .ok shape ∧
              shape.property? "label" = some ⟨"label", some (.ofKeyword .string), false, false, false⟩ ∧
                arena.compile ⟨19⟩ {} = .ok v ∧ v.root = "number" ∧
                  v.accepts (.string "top") = false := by
  have compiles : ((signedShelves.compile ⟨19⟩ {}).toOption.map fun v =>
      v.root == "number" && !v.accepts (.string "top")) = some true := by decide
  obtain ⟨v, compiled, checked⟩ := Option.map_eq_some_iff.1 compiles
  rw [toOption_eq_some] at compiled
  simp only [Bool.and_eq_true, beq_iff_eq, Bool.not_eq_true'] at checked
  exact ⟨signedShelves, ⟨"Shelf", [], some ⟨16⟩, [⟨15⟩]⟩,
    ⟨[⟨"label", some (.ofKeyword .string), false, false, false⟩], some (.ofKeyword .number)⟩, v, rfl, rfl,
    rfl, rfl, rfl, rfl, compiled, checked⟩

end ShapeCheck
