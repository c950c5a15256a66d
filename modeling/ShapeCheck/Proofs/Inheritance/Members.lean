import ShapeCheck.Compile.Basic
import ShapeCheck.Proofs.Failing
import ShapeCheck.Proofs.Compilation.Registry
import ShapeCheck.Proofs.Meaning.Keys

set_option autoImplicit false

/-! # Keys and members

The keys of a type and its members are found by two walks over the same types. If the collected keys are
closed, the walk for a key goes over nothing but objects, references, parameters, unions and intersections
that the collection went over as well, and over types without members. So it finds members for the collected
keys, and for no others, where the objects on the way declare nothing but members with a type that are
keyed by texts. Whether an object declares a name twice does not matter.

Main facts: `ends_membersWithin` and `Context.members_of_collectKeys`.
-/

namespace ShapeCheck

/-! ## Results and errors of steps -/

/-- A step ends with a result that satisfies the property, or with an error of the class. -/
structure Build.Ends {α : Type} (E : CompileError → Prop) (m : Build α) (Q : α → Prop) : Prop where
  fails : OnlyFails E m
  keeps : Keeps (fun _ : Registry => True) m Q

namespace Build.Ends

variable {α β : Type} {E : CompileError → Prop} {Q : α → Prop} {Q' : β → Prop}

theorem pure {a : α} (h : Q a) : Ends E (Pure.pure a) Q := ⟨.pure a, .pure h⟩

theorem bind {m : Build α} {f : α → Build β} (first : Ends E m Q) (second : ∀ a, Q a → Ends E (f a) Q') :
    Ends E (m >>= f) Q' := by
  refine ⟨first.fails.bind_of_gives fun r a r' made => ?_, first.keeps.bind fun a good => (second a good).keeps⟩
  exact (second a (first.keeps r a r' made trivial).2).fails

theorem mono {m : Build α} {P : α → Prop} (h : Ends E m P) (weaker : ∀ a, P a → Q a) : Ends E m Q :=
  ⟨h.fails, h.keeps.mono weaker⟩

theorem lift_bind {m : Except CompileError α} {f : α → Build β} {a : α} (made : m = .ok a)
    (second : Ends E (f a) Q') : Ends E ((liftM m : Build α) >>= f) Q' := by
  rw [made]
  exact second

theorem mapM {f : α → Build β} {R : α → β → Prop} {items : List α} (h : ∀ a ∈ items, Ends E (f a) (R a)) :
    Ends E (items.mapM f) (List.Forall₂ R items) :=
  ⟨.mapM fun a inside => (h a inside).fails, .mapM fun a inside => (h a inside).keeps⟩

/-- A step comes to its end in every registry. -/
theorem exists_outcome {m : Build α} (h : Ends E m Q) (r : Registry) :
    (∃ a r', Gives m r a r' ∧ Q a) ∨ ∃ e r', m.run.run r = (.error e, r') ∧ E e := by
  rcases ended : m.run.run r with ⟨a | e, r'⟩
  · exact .inr ⟨_, r', rfl, h.fails r _ r' ended⟩
  · exact .inl ⟨_, r', ended, (h.keeps r _ r' ended trivial).2⟩

end Build.Ends

/-! ## The objects behind a type -/

/-- The keys and the members of a type are those of objects, each of which is read in a context of its
own. -/
inductive Context.ArrivesAt : Context → TypeId → ObjectShape → Context → Prop
  | object {ctx : Context} {type : TypeId} {shape : ObjectShape}
      (found : ctx.arena.lookup? type = some (.object shape)) : ArrivesAt ctx type shape ctx
  | union {ctx home : Context} {type member : TypeId} {members : List TypeId} {shape : ObjectShape}
      (found : ctx.arena.lookup? type = some (.union members)) (listed : member ∈ members)
      (there : ArrivesAt ctx member shape home) : ArrivesAt ctx type shape home
  | intersection {ctx home : Context} {type member : TypeId} {members : List TypeId}
      {shape : ObjectShape} (found : ctx.arena.lookup? type = some (.intersection members))
      (listed : member ∈ members) (there : ArrivesAt ctx member shape home) : ArrivesAt ctx type shape home
  | reference {ctx inside home : Context} {type body part : TypeId} {target : DefinitionId}
      {arguments : List TypeId} {definition : Definition} {shape : ObjectShape}
      (found : ctx.arena.lookup? type = some (.reference target arguments))
      (known : ctx.arena.definition? target = some definition)
      (entered : ctx.enter definition arguments = .ok inside) (given : definition.body = some body)
      (listed : part ∈ body :: definition.bases) (there : ArrivesAt inside part shape home) :
      ArrivesAt ctx type shape home
  | parameter {ctx visible home : Context} {type stands : TypeId} {id : ParameterId}
      {shape : ObjectShape} (found : ctx.arena.lookup? type = some (.parameter id))
      (resolved : ctx.resolve id = .ok (stands, visible)) (there : ArrivesAt visible stands shape home) :
      ArrivesAt ctx type shape home

/-- The objects behind a type are objects of its arena. -/
theorem Context.ArrivesAt.exists_lookup {ctx home : Context} {type : TypeId} {shape : ObjectShape}
    (there : ctx.ArrivesAt type shape home) : ∃ part, ctx.arena.lookup? part = some (.object shape) := by
  induction there with
  | object found => exact ⟨_, found⟩
  | union _ _ _ ih | intersection _ _ _ ih => exact ih
  | reference _ _ entered _ _ _ ih =>
    obtain ⟨_, -, made⟩ := bind_eq_ok.1 entered
    obtain rfl := Except.ok.inj made
    exact ih
  | parameter _ resolved _ ih =>
    obtain ⟨_, -, made⟩ := bind_eq_ok.1 resolved
    obtain ⟨rfl, rfl⟩ := Prod.mk.inj (Except.ok.inj made)
    exact ih

/-- An object whose members have types and are keyed by texts. -/
def ObjectShape.IsPlain (shape : ObjectShape) : Prop :=
  ∀ property ∈ shape.properties,
    property.method = false ∧ property.type.isSome ∧ property.symbolKeyed = false

theorem ObjectShape.IsPlain.property?_eq_none_iff {shape : ObjectShape} (plain : shape.IsPlain)
    (key : String) : shape.property? key = none ↔ key ∉ shape.keys := by
  rw [property?, List.find?_eq_none, mem_keys]
  constructor
  · rintro absent ⟨property, declared, -, rfl⟩
    exact absent property declared (by simp)
  · intro absent property declared same
    exact absent ⟨property, declared, (plain property declared).2.2, by simpa using same⟩

/-! ## Members -/

/-- The keys of a type have a key in them. -/
def KeySet.Has (key : String) (collected : Except CompileError KeySet) : Prop :=
  ∃ keys, collected = .ok (some keys) ∧ key ∈ keys

section
variable {compile : Context → TypeId → Build String} {key : String} {E : CompileError → Prop}

theorem ends_compilePart {ctx : Context} {type : TypeId} (fails : OnlyFails E (compile ctx type))
    (optional : Bool) : Build.Ends E (compilePart compile ctx type optional) fun _ => True := by
  refine ⟨fails.bind fun name => ?_, fun _ _ _ _ _ => ⟨trivial, trivial⟩⟩
  split
  · exact Build.onlyFails_optional name
  · exact .pure name

/-- Of a plain object without an index signature, a key selects a member if it is declared. -/
theorem ends_objectMembers {ctx : Context} {shape : ObjectShape} (plain : shape.IsPlain)
    (unsigned : shape.index = none)
    (fails : key ∈ shape.keys → ∀ property ∈ shape.properties, property.name = key →
      ∀ part, property.type = some part → OnlyFails E (compile ctx part)) :
    Build.Ends E (objectMembers compile ctx shape (.name key)) fun found =>
      found = [] ↔ key ∉ shape.keys := by
  have absent_iff := plain.property?_eq_none_iff key
  rw [← absent_iff]
  cases declared : shape.property? key with
  | none =>
    simp only [objectMembers, declared, unsigned]
    exact .pure (by simp)
  | some property =>
    have inside : property ∈ shape.properties := List.mem_of_find?_eq_some declared
    have same : property.name = key := by simpa using List.find?_some declared
    have present : key ∈ shape.keys := by
      rw [declared] at absent_iff
      simpa using absent_iff
    obtain ⟨field, typed, -⟩ := plain property inside
    obtain ⟨part, typed⟩ := Option.isSome_iff_exists.1 typed
    simp only [objectMembers, declared, field, typed, Bool.false_eq_true, if_false]
    exact (ends_compilePart (fails present property inside same part typed) _).bind fun name _ => .pure (by simp)

/-- The first members that are found are none only if none of the types has any. -/
theorem ends_firstNonempty {find : TypeId → Build (List String)} {Has : TypeId → Prop}
    {types : List TypeId}
    (each : ∀ type ∈ types, Build.Ends E (find type) fun found => found = [] ↔ ¬ Has type) :
    Build.Ends E (firstNonempty find types) fun found => found = [] ↔ ¬ ∃ type ∈ types, Has type := by
  induction types with
  | nil => exact .pure (by simp)
  | cons type rest ih =>
    refine (each type List.mem_cons_self).bind fun found here => ?_
    split
    · rename_i none
      have absent := here.1 (List.isEmpty_iff.1 none)
      simpa [absent] using ih fun other listed => each other (List.mem_cons_of_mem _ listed)
    · rename_i some
      rw [List.isEmpty_iff, here, not_not] at some
      exact .pure (by simp [here, some])

/-- The members of several types are none only if none of the types has any. -/
theorem flatten_eq_nil_iff {Has : TypeId → Prop} {types : List TypeId} {lists : List (List String)}
    (each : List.Forall₂ (fun type found => found = [] ↔ ¬ Has type) types lists) :
    lists.flatten.eraseDups = [] ↔ ¬ ∃ type ∈ types, Has type := by
  suffices none : lists.flatten = [] ↔ ¬ ∃ type ∈ types, Has type by
    rw [← none]
    simp only [List.eq_nil_iff_forall_not_mem, List.mem_eraseDups]
  induction each with
  | nil => simp
  | cons here _ ih =>
    simp only [List.flatten_cons, List.append_eq_nil_iff, here, ih, List.exists_mem_cons_iff, not_or]

/-- The members of a type that a key selects: none if the key is not among those of the type. -/
theorem ends_membersWithin {depth steps : Nat} {ctx : Context} {type : TypeId} {keys : List String}
    (collected : collectKeysWithin depth steps ctx type = .ok (some keys))
    (plain : ∀ shape home, ctx.ArrivesAt type shape home → shape.IsPlain)
    (fails : key ∈ keys → ∀ shape home, ctx.ArrivesAt type shape home → ∀ property ∈ shape.properties,
      property.name = key → ∀ part, property.type = some part → OnlyFails E (compile home part)) :
    Build.Ends E (membersWithin compile (.name key) steps ctx type) fun found =>
      found = [] ↔ key ∉ keys := by
  induction steps generalizing ctx type keys with
  | zero =>
    obtain ⟨_, -, thrown⟩ := bind_eq_ok.1 collected
    cases thrown
  | succ steps ih =>
    unfold collectKeysWithin at collected
    unfold membersWithin
    obtain ⟨descriptor, looked, collected⟩ := bind_eq_ok.1 collected
    have found : ctx.arena.lookup? type = some descriptor := Arena.lookup_eq_ok.1 looked
    refine .lift_bind looked ?_
    -- several types whose keys are gathered
    have several {inside : Context} {parts : List TypeId}
        (reached : ∀ part ∈ parts, ∀ shape home, inside.ArrivesAt part shape home →
          ctx.ArrivesAt type shape home)
        (gathered : gatherKeys (collectKeysWithin depth steps inside) [] parts = .ok (some keys)) :
        (∀ part ∈ parts, Build.Ends E (membersWithin compile (.name key) steps inside part) fun found =>
            found = [] ↔ ¬ KeySet.Has key (collectKeysWithin depth steps inside part)) ∧
          (key ∈ keys ↔ ∃ part ∈ parts, KeySet.Has key (collectKeysWithin depth steps inside part)) := by
      refine ⟨fun part listed => ?_, by simpa [KeySet.Has] using mem_gatherKeys gathered key⟩
      obtain ⟨own, made⟩ := closed_of_gatherKeys gathered part listed
      have has : KeySet.Has key (collectKeysWithin depth steps inside part) ↔ key ∈ own := by
        simp [KeySet.Has, made]
      rw [has]
      refine ih made (fun shape home there => plain shape home (reached part listed shape home there))
        fun present shape home there => ?_
      exact fails ((mem_gatherKeys gathered key).2 (.inr ⟨part, listed, own, made, present⟩)) shape home
        (reached part listed shape home there)
    cases descriptor with
    | object shape =>
      obtain ⟨unsigned, same⟩ : shape.index = none ∧ shape.keys = keys := by
        simpa [pure, Except.pure] using collected
      rw [← same]
      exact ends_objectMembers (plain _ _ (.object found)) unsigned fun present =>
        fails (same ▸ present) _ _ (.object found)
    | union members =>
      obtain ⟨each, has⟩ := several (fun part listed shape home there => .union found listed there) collected
      rw [has]
      exact (Build.Ends.mapM each).bind fun lists related => .pure (flatten_eq_nil_iff related)
    | intersection members =>
      obtain ⟨each, has⟩ :=
        several (fun part listed shape home there => .intersection found listed there) collected
      rw [has]
      exact ends_firstNonempty each
    | reference target arguments =>
      obtain ⟨definition, leads, collected⟩ := bind_eq_ok.1 collected
      obtain ⟨inside, entered, collected⟩ := bind_eq_ok.1 collected
      obtain ⟨body, given, collected⟩ := bind_eq_ok.1 collected
      obtain ⟨each, has⟩ := several (fun part listed shape home there => .reference found
        (Arena.target_eq_ok.1 leads) entered (Definition.requireBody_eq_ok.1 given) listed there) collected
      rw [has]
      exact .lift_bind leads (.lift_bind entered (.lift_bind given (ends_firstNonempty each)))
    | parameter id =>
      obtain ⟨⟨stands, visible⟩, resolved, collected⟩ := bind_eq_ok.1 collected
      refine .lift_bind resolved (ih collected ?_ ?_)
      · exact fun shape home there => plain shape home (.parameter found resolved there)
      · exact fun present shape home there => fails present shape home (.parameter found resolved there)
    | array | tuple | indexAccess => cases collected
    | keyword word =>
      cases word <;> first
        | cases collected
          done
        | obtain rfl := Option.some.inj (Except.ok.inj collected)
          exact .pure (by simp)
    | stringLiteral | numberLiteral | booleanLiteral | buffer | view | keyof =>
      obtain rfl := Option.some.inj (Except.ok.inj collected)
      exact .pure (by simp)

end

/-! ## Accesses -/

/-- The error of compiling a member that is declared under a key by one of the objects behind a type. -/
def Context.MemberFails (ctx : Context) (compile : Context → TypeId → Build String) (type : TypeId)
    (key : String) (e : CompileError) : Prop :=
  ∃ shape home, ctx.ArrivesAt type shape home ∧ ∃ property ∈ shape.properties, property.name = key ∧
    ∃ part, property.type = some part ∧ ∃ r r', (compile home part).run.run r = (.error e, r')

section
variable {depth : Nat} {compile : Context → TypeId → Build String} {ctx : Context}
  {type access index : TypeId} {keys : List String}

/-- An access by a text for which nothing is found has no result. -/
theorem keeps_compileIndexAccess_of_nothing {key : String}
    (isKey : ctx.arena.lookup? index = some (.stringLiteral key))
    (nothing : Keeps (fun _ : Registry => True)
      (membersWithin compile (.name key) maxResolutionSteps ctx type) (· = [])) :
    Keeps (fun _ : Registry => True) (compileIndexAccess depth compile ctx access type index)
      fun _ => False := by
  have indexed : ctx.indexKeys depth index = .ok [.name key] := by
    show indexKeysWithin depth (63 + 1) ctx index = _
    rw [indexKeysWithin, Arena.lookup_eq_ok.2 isKey]
    rfl
  unfold compileIndexAccess
  refine Keeps.lift_bind fun _ same => ?_
  obtain rfl := Except.ok.inj (same.symm.trans indexed)
  rw [List.mapM_cons, bind_assoc]
  refine Keeps.bind (Q := fun _ => False) ?_ fun _ => False.elim
  refine nothing.bind ?_
  rintro _ rfl
  exact Keeps.lift_bind fun _ _ => .throw _

/-- An access by all keys of a type fails only as its members do, or because it has no name. -/
theorem ends_compileIndexAccess_keyof {E : CompileError → Prop}
    (collected : ctx.collectKeys depth type = .ok (some keys)) (some : keys ≠ [])
    (isKeys : ctx.arena.lookup? index = Option.some (.keyof type))
    (each : ∀ key ∈ keys, Build.Ends E (membersWithin compile (.name key) maxResolutionSteps ctx type)
      (· ≠ []))
    (named : OnlyErrors E (ctx.nameOf depth access)) :
    OnlyFails E (compileIndexAccess depth compile ctx access type index) := by
  have indexed : ctx.indexKeys depth index = .ok (keys.map .name) := by
    show indexKeysWithin depth (63 + 1) ctx index = _
    rw [indexKeysWithin, Arena.lookup_eq_ok.2 isKeys]
    show (ctx.collectKeys depth type >>= _) = _
    rw [collected]
    rfl
  unfold compileIndexAccess
  rw [indexed, Build.liftM_ok, pure_bind]
  have found : ∀ key ∈ keys.map IndexKey.name,
      Build.Ends E (selectedMembers depth compile ctx access type key) (· ≠ []) := by
    intro key listed
    obtain ⟨text, isKey, rfl⟩ := List.mem_map.1 listed
    refine (each text isKey).bind fun names nonempty => ?_
    rw [if_neg fun empty => nonempty (List.isEmpty_iff.1 empty)]
    exact .pure nonempty
  have all := Build.Ends.mapM found
  refine all.fails.bind_of_gives fun r lists r' made => ?_
  split
  · rename_i none
    obtain ⟨key, rest, rfl⟩ := List.exists_cons_of_ne_nil some
    obtain ⟨names, lists, nonempty, -, rfl⟩ :=
      List.forall₂_cons_left_iff.1 (all.keeps r _ r' made trivial).2
    obtain ⟨name, inside⟩ := List.exists_mem_of_ne_nil names nonempty
    have listed : name ∈ (names :: lists).flatten.eraseDups := by
      rw [List.mem_eraseDups, List.flatten_cons]
      exact List.mem_append_left _ inside
    rw [none] at listed
    cases listed
  · exact .pure _
  · exact OnlyFails.lift_bind named fun name _ => Build.onlyFails_ensureExpr (.pure _)

end

/-- The keys of a type are those under which a member is found. The search for another key finds nothing,
and an access by it is never compiled. The search for a key of the type finds something or fails as the
compilation of a member of this name does, and so does an access by all keys, if there are some and the
access has a name. -/
theorem Context.members_of_collectKeys {depth : Nat} {ctx : Context} {type : TypeId} {keys : List String}
    (collected : ctx.collectKeys depth type = .ok (some keys))
    (plain : ∀ shape home, ctx.ArrivesAt type shape home → shape.IsPlain) :
    (∀ key r,
      (key ∉ keys → ∃ r',
        Gives (membersWithin (compileWithin depth) (.name key) maxResolutionSteps ctx type) r [] r') ∧
      (key ∈ keys →
        (∃ found r', found ≠ [] ∧
          Gives (membersWithin (compileWithin depth) (.name key) maxResolutionSteps ctx type) r found r') ∨
        ∃ e r', ctx.MemberFails (compileWithin depth) type key e ∧
          (membersWithin (compileWithin depth) (.name key) maxResolutionSteps ctx type).run.run r =
            (.error e, r'))) ∧
    ∀ access index, ctx.arena.lookup? access = some (.indexAccess type index) →
      (∀ key, ctx.arena.lookup? index = some (.stringLiteral key) → key ∉ keys →
        ∀ r name r', ¬ Gives (compileWithin (depth + 1) ctx access) r name r') ∧
      (ctx.arena.lookup? index = some (.keyof type) → keys ≠ [] →
        OnlyFails (fun e => (∃ key ∈ keys, ctx.MemberFails (compileWithin depth) type key e) ∨
          ctx.nameOf depth access = .error e) (compileWithin (depth + 1) ctx access)) := by
  have ends (key : String) : Build.Ends
      (fun e => key ∈ keys ∧ ctx.MemberFails (compileWithin depth) type key e)
      (membersWithin (compileWithin depth) (.name key) maxResolutionSteps ctx type) fun found =>
        found = [] ↔ key ∉ keys :=
    ends_membersWithin collected plain fun present shape home there property declared same part typed r _ r'
      failed => ⟨present, shape, home, there, property, declared, same, part, typed, r, r', failed⟩
  refine ⟨fun key r => ⟨fun absent => ?_, fun present => ?_⟩, fun access index isAccess => ?_⟩
  · rcases (ends key).exists_outcome r with ⟨found, r', made, empty⟩ | ⟨e, r', -, present, -⟩
    · exact ⟨r', empty.2 absent ▸ made⟩
    · exact absurd present absent
  · rcases (ends key).exists_outcome r with ⟨found, r', made, empty⟩ | ⟨e, r', failed, -, fails⟩
    · exact .inl ⟨found, r', fun none => empty.1 none present, made⟩
    · exact .inr ⟨e, r', fails, failed⟩
  · have compiled : compileWithin (depth + 1) ctx access =
        compileIndexAccess depth (compileWithin depth) ctx access type index := by
      have looked : ctx.arena.lookup access = .ok (.indexAccess type index) := Arena.lookup_eq_ok.2 isAccess
      simp [compileWithin, looked, compileDescriptor, Descriptor.leaf?]
    rw [compiled]
    refine ⟨fun key isKey absent r name r' made => ?_, fun isKeys some => ?_⟩
    · have nothing := (ends key).keeps.mono fun found empty => empty.2 absent
      exact (keeps_compileIndexAccess_of_nothing isKey nothing r name r' made trivial).2
    · refine ends_compileIndexAccess_keyof collected some isKeys (fun key listed => ?_) fun e failed =>
        .inr failed
      exact ⟨fun r e r' failed => .inl ⟨key, (ends key).fails r e r' failed⟩,
        (ends key).keeps.mono fun found empty none => empty.1 none listed⟩

/-! ## Titled pages -/

/-- `Page<T>` has items of the type `T` and extends `Titled`, which has a title. The last types are
`Page<string>`, an access to it by all its keys, and one by a key that it does not have. -/
def titledPages : Arena where
  descriptors := Arena.initial.descriptors ++
    #[.parameter ⟨0⟩, .object ⟨[⟨"title", some (.ofKeyword .string), false, false, false⟩], none⟩,
      .reference ⟨0⟩ [], .array ⟨14⟩, .object ⟨[⟨"items", some ⟨17⟩, false, false, false⟩], none⟩,
      .reference ⟨1⟩ [.ofKeyword .string], .keyof ⟨19⟩, .indexAccess ⟨19⟩ ⟨20⟩, .stringLiteral "author",
      .indexAccess ⟨19⟩ ⟨22⟩]
  parameters := #[⟨"T", none⟩]
  definitions := #[⟨"Titled", [], some ⟨15⟩, []⟩, ⟨"Page", [⟨0⟩], some ⟨18⟩, [⟨16⟩]⟩]

/-- The title and the items are the keys of the page: each of them is found, the author is not, and the
access by all keys fails only as one of its members does. -/
theorem members_of_collectKeys_titledPages :
    (Context.root titledPages {}).collectKeys 4 ⟨19⟩ = .ok (some ["items", "title"]) ∧
      (∃ r', Gives (membersWithin (compileWithin 4) (.name "author") maxResolutionSteps
        (Context.root titledPages {}) ⟨19⟩) .empty [] r') ∧
      (∀ r name r', ¬ Gives (compileWithin (4 + 1) (Context.root titledPages {}) ⟨23⟩) r name r') ∧
      OnlyFails (fun e => (∃ key ∈ ["items", "title"],
          (Context.root titledPages {}).MemberFails (compileWithin 4) ⟨19⟩ key e) ∨
        (Context.root titledPages {}).nameOf 4 ⟨21⟩ = .error e)
        (compileWithin (4 + 1) (Context.root titledPages {}) ⟨21⟩) := by
  have collected : (Context.root titledPages {}).collectKeys 4 ⟨19⟩ = .ok (some ["items", "title"]) := by
    rfl
  have plain : ∀ shape home, (Context.root titledPages {}).ArrivesAt ⟨19⟩ shape home → shape.IsPlain := by
    intro shape home there
    obtain ⟨part, found⟩ := there.exists_lookup
    have inside : Descriptor.object shape ∈ titledPages.descriptors := Array.mem_of_getElem? found
    have objects : shape = ⟨[⟨"title", some (.ofKeyword .string), false, false, false⟩], none⟩ ∨
        shape = ⟨[⟨"items", some ⟨17⟩, false, false, false⟩], none⟩ := by
      simpa [titledPages, Arena.initial] using inside
    rcases objects with rfl | rfl <;> simp [ObjectShape.IsPlain]
  obtain ⟨members, accesses⟩ := Context.members_of_collectKeys collected plain
  exact ⟨collected, (members "author" .empty).1 (by simp), (accesses ⟨23⟩ ⟨22⟩ rfl).1 "author" rfl (by simp),
    (accesses ⟨21⟩ ⟨20⟩ rfl).2 rfl (by simp)⟩

end ShapeCheck
