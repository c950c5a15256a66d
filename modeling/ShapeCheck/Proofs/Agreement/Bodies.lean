import ShapeCheck.Proofs.Agreement.Names

set_option autoImplicit false

/-! # Bodies that agree

What the body of a predicate says depends on the registry in two ways only: through the names of the parts,
and through the question whether the predicate of a part accepts everything. Where the answers to these are
told by the subjects (`Subject.Reliable`), two compilations of subjects that are alike write the same body,
whatever each of them has compiled before.

Main facts: `Subject.Reliable.agree_body` and `Subject.Reliable.agree_choices`.
-/

namespace ShapeCheck

/-! ## Two runs -/

section
variable {α β γ δ : Type} {I : Registry → Prop}

/-- Started on registries with the invariant, both steps end on such registries, and their results are
related. -/
def Agree (I : Registry → Prop) (R : α → β → Prop) (m : Build α) (n : Build β) : Prop :=
  ∀ r a t r' b t', Gives m r a t → Gives n r' b t' → I r → I r' → R a b ∧ I t ∧ I t'

theorem isComparison_agree (I : Registry → Prop) : IsComparison (Agree I) where
  pure related := by
    intro r a t r' b t' outcome outcome' holds holds'
    obtain ⟨rfl, rfl⟩ := gives_pure.1 outcome
    obtain ⟨rfl, rfl⟩ := gives_pure.1 outcome'
    exact ⟨related, holds, holds'⟩
  throw e e' := fun _ _ _ _ _ _ outcome => absurd outcome gives_throw
  bind first second := by
    intro r c t r' d t' outcome outcome' holds holds'
    obtain ⟨a, u, made, rest⟩ := gives_bind.1 outcome
    obtain ⟨b, u', made', rest'⟩ := gives_bind.1 outcome'
    obtain ⟨related, between, between'⟩ := first r a u r' b u' made made' holds holds'
    exact second a b related u c t u' d t' rest rest' between between'

namespace Agree

variable {R : α → β → Prop} {m : Build α} {n : Build β}

/-- Steps agree if what is known of each result is enough to relate them. -/
theorem of_keeps {Q : α → Prop} {Q' : β → Prop} (h : Keeps I m Q) (h' : Keeps I n Q')
    (related : ∀ a b, Q a → Q' b → R a b) : Agree I R m n := by
  intro r a t r' b t' outcome outcome' holds holds'
  obtain ⟨after, known⟩ := h r a t outcome holds
  obtain ⟨after', known'⟩ := h' r' b t' outcome' holds'
  exact ⟨related a b known known', after, after'⟩

/-- A step that agrees with itself keeps the invariant. -/
theorem keeps {R : α → α → Prop} {m : Build α} (h : Agree I R m m) : Keeps I m fun _ => True := by
  intro r a t outcome holds
  exact ⟨(h r a t r a t outcome outcome holds holds).2.1, trivial⟩

/-- Results that need no registry, and what follows. -/
theorem lift_bind {x : Except CompileError γ} {y : Except CompileError δ} {f : γ → Build α}
    {g : δ → Build β} (h : ∀ c d, x = .ok c → y = .ok d → Agree I R (f c) (g d)) :
    Agree I R ((liftM x : Build γ) >>= f) ((liftM y : Build δ) >>= g) := by
  intro r a t r' b t' outcome outcome'
  obtain ⟨c, made, rest⟩ := Build.gives_lift_bind.1 outcome
  obtain ⟨d, made', rest'⟩ := Build.gives_lift_bind.1 outcome'
  exact h c d made made' r a t r' b t' rest rest'

end Agree

end

/-! ## Bodies -/

/-- What the predicate of a descriptor does that is not compiled as others. -/
def Descriptor.body (depth : Nat) (compile : Context → TypeId → Build String) (ctx : Context)
    (type : TypeId) : Descriptor → Build (List Stmt)
  | .array element => arrayBody compile ctx element
  | .tuple elements => do return [.result (← tupleCheck compile ctx elements)]
  | .object shape => objectBody compile ctx shape
  | .union members => do return [.result (← unionCheck compile ctx members)]
  | .intersection members => do
    return [.result (← intersectionCheck depth compile ctx type members)]
  | .reference target arguments => do
    let definition ← ctx.arena.target type target
    referenceBody compile ctx definition arguments
  | .keyof operand => do return [.result (← keyofCheck depth ctx operand)]
  | other =>
    match other.leaf? with
    | some leaf => return [.result leaf.check]
    | none => throw (.unsupportedType type other.kindName)

/-- What the predicate of a descriptor asks, if it is a leaf. -/
def Descriptor.reason? (descriptor : Descriptor) : Option Reason := descriptor.leaf?.bind Leaf.reason

/-! ## Parts -/

namespace Subject

section
variable (arena : Arena) (ignoreMethods : Bool) (root : Subject)

/-- The name is one of a subject that accepts everything by itself. -/
def Vacuous (name : String) : Prop :=
  ∃ subject, IsBuilt arena root subject ∧ Bears arena true subject name ∧ subject.AcceptsAll arena

/-- What is found for parts is told by their subjects. -/
structure Reliable (I : Registry → Prop) (compile : Context → TypeId → Build String) : Prop where
  compiles : ∀ options s type, options.ignoreMethods = ignoreMethods →
    IsBuilt arena root (.ofType options.superfluousPropertyCheck (s, type)) →
      Keeps I (compile ⟨arena, options, s⟩ type) fun name =>
        ∃ own, Bears arena own (.ofType options.superfluousPropertyCheck (s, type)) name
  asks : ∀ options s type, options.ignoreMethods = ignoreMethods →
    IsBuilt arena root (.ofType options.superfluousPropertyCheck (s, type)) →
      Keeps I (askPart compile ⟨arena, options, s⟩ type) fun asked =>
        (∃ own, Bears arena own (.ofType options.superfluousPropertyCheck (s, type)) asked.1) ∧
          (asked.2 = true ↔ Vacuous arena root asked.1)
  chooses : ∀ options choice, options.ignoreMethods = ignoreMethods →
    IsBuilt arena root (.ofChoice options.superfluousPropertyCheck choice) →
      Keeps I (compilePart compile ⟨arena, options, choice.reading.1⟩ choice.reading.2 choice.optional)
        fun name => ∃ own, Bears arena own (.ofChoice options.superfluousPropertyCheck choice) name
  keySets : ∀ keys, IsBuilt arena root (.keySet keys) →
    Keeps I (exactKeysPredicate keys) fun name => name = exactKeysName keys

end

variable {arena : Arena} {ignoreMethods : Bool} {root : Subject} {I : Registry → Prop}
  {compile compile' : Context → TypeId → Build String}

theorem Alike.ofChoice {exact exact' : Bool} {choice choice' : Choice} (h : choice.Alike arena choice')
    (same : exact = exact' ∨ ¬ arena.IsMarked choice.reading) :
    (Subject.ofChoice exact choice).Alike arena (Subject.ofChoice exact' choice') := by
  unfold Subject.ofChoice
  rw [h.optional]
  split <;> exact ⟨h.reading, same⟩

namespace Reliable

variable (h : Reliable arena ignoreMethods root I compile)
  (h' : Reliable arena ignoreMethods root I compile')
  (number : arena.lookup? (.ofKeyword .number) = some (.keyword .number))
  {options options' : CompileOptions} (ignores : options.ignoreMethods = ignoreMethods)
  (ignores' : options'.ignoreMethods = ignoreMethods)
include h h' number ignores ignores'

section
variable {s s' : Substitution} {type type' : TypeId}
  (built : IsBuilt arena root (.ofType options.superfluousPropertyCheck (s, type)))
  (built' : IsBuilt arena root (.ofType options'.superfluousPropertyCheck (s', type')))
  (alike : (Subject.ofType options.superfluousPropertyCheck (s, type)).Alike arena
    (.ofType options'.superfluousPropertyCheck (s', type')))
include built built' alike

theorem agree_compile :
    Agree I Eq (compile ⟨arena, options, s⟩ type) (compile' ⟨arena, options', s'⟩ type') :=
  .of_keeps (h.compiles options s type ignores built) (h'.compiles options' s' type' ignores' built')
    fun _ _ ⟨_, bears⟩ ⟨_, bears'⟩ => bears.unique number alike bears'

theorem agree_askPart :
    Agree I Eq (askPart compile ⟨arena, options, s⟩ type)
      (askPart compile' ⟨arena, options', s'⟩ type') := by
  refine .of_keeps (h.asks options s type ignores built) (h'.asks options' s' type' ignores' built') ?_
  rintro ⟨name, always⟩ ⟨name', always'⟩ ⟨⟨_, bears⟩, told⟩ ⟨⟨_, bears'⟩, told'⟩
  obtain rfl := bears.unique number alike bears'
  exact Prod.ext rfl (Bool.eq_iff_iff.2 (told.trans told'.symm))

end

theorem agree_compilePart {choice choice' : Choice}
    (built : IsBuilt arena root (.ofChoice options.superfluousPropertyCheck choice))
    (built' : IsBuilt arena root (.ofChoice options'.superfluousPropertyCheck choice'))
    (alike : (Subject.ofChoice options.superfluousPropertyCheck choice).Alike arena
      (.ofChoice options'.superfluousPropertyCheck choice')) :
    Agree I Eq
      (compilePart compile ⟨arena, options, choice.reading.1⟩ choice.reading.2 choice.optional)
      (compilePart compile' ⟨arena, options', choice'.reading.1⟩ choice'.reading.2 choice'.optional) :=
  .of_keeps (h.chooses options choice ignores built) (h'.chooses options' choice' ignores' built')
    fun _ _ ⟨_, bears⟩ ⟨_, bears'⟩ => bears.unique number alike bears'

/-! ## Contents of definitions -/

/-- Objects whose members are checked alike have the same body. -/
theorem agree_objectBody {s s' : Substitution} {shape shape' : ObjectShape}
    (form : shape.Pairs (fun part part' => arena.Alike (s, part) (s', part')) shape')
    (exact : options.superfluousPropertyCheck = options'.superfluousPropertyCheck)
    (built : ∀ part, shape.Checks part →
      IsBuilt arena root (.ofType options.superfluousPropertyCheck (s, part)))
    (built' : ∀ part, shape'.Checks part →
      IsBuilt arena root (.ofType options'.superfluousPropertyCheck (s', part))) :
    Agree I Eq (objectBody compile ⟨arena, options, s⟩ shape)
      (objectBody compile' ⟨arena, options', s'⟩ shape') := by
  refine (isComparison_agree I).objectBody (ignores.trans ignores'.symm) form (fun _ => exact) ?_ ?_
  · intro property inside property' inside' pair texts field type typed type' typed' alike
    refine h.agree_compile h' number ignores ignores' (built _ (.inl ⟨_, inside, texts, field, typed⟩))
      (built' _ (.inl ⟨_, inside', ?_, ?_, typed'⟩)) ⟨alike, .inl exact⟩
    · rw [← pair.symbolKeyed, texts]
    · rw [← pair.method, field]
  · intro type indexed type' indexed' alike
    exact h.agree_askPart h' number ignores ignores' (built _ (.inr indexed)) (built' _ (.inr indexed'))
      ⟨alike, .inl exact⟩

theorem agree_referenceBody {s s' : Substitution} {type type' : TypeId} {target : DefinitionId}
    {arguments arguments' : List TypeId} {definition : Definition}
    (found : arena.lookup? type = some (.reference target arguments))
    (found' : arena.lookup? type' = some (.reference target arguments'))
    (leads : arena.definition? target = some definition)
    (same : arena.SameReference arena.Alike s s' target arguments target arguments')
    (exact : options.superfluousPropertyCheck = options'.superfluousPropertyCheck)
    (built : IsBuilt arena root (.ofType options.superfluousPropertyCheck (s, type)))
    (built' : IsBuilt arena root (.ofType options'.superfluousPropertyCheck (s', type'))) :
    Agree I Eq (referenceBody compile ⟨arena, options, s⟩ definition arguments)
      (referenceBody compile' ⟨arena, options', s'⟩ definition arguments') := by
  unfold referenceBody
  refine .lift_bind fun inside inside' entered entered' => ?_
  obtain ⟨t, opened, made⟩ := bind_eq_ok.1 entered
  obtain ⟨t', opened', made'⟩ := bind_eq_ok.1 entered'
  obtain rfl := Except.ok.inj made
  obtain rfl := Except.ok.inj made'
  have alike : arena.AlikeInside definition t t' := (same.enter leads).related opened opened'
  refine .lift_bind fun body body' given given' => ?_
  obtain rfl := Except.ok.inj (given.symm.trans given')
  have given : definition.body = some body := Definition.requireBody_eq_ok.1 given
  split
  · rename_i none
    have plain : definition.bases = [] := List.isEmpty_iff.1 none
    refine (isComparison_agree I).map _ ?_
    exact h.agree_compile h' number ignores ignores' (.tail built (.body found leads opened given plain))
      (.tail built' (.body found' leads opened' given plain)) ⟨alike body (.inl given), .inl exact⟩
  · rename_i some
    have derived : definition.bases ≠ [] := fun none => some (List.isEmpty_iff.2 none)
    refine .lift_bind fun shape shape' merged merged' => ?_
    obtain rfl := Except.ok.inj (merged.symm.trans merged')
    have form : shape.Pairs (fun part part' => arena.Alike (t, part) (t', part')) shape :=
      ObjectShape.Pairs.self fun part inside => alike part (.inr (.inr ⟨shape, merged, inside⟩))
    exact h.agree_objectBody h' number ignores ignores' form exact
      (fun part checks => .tail built (.inherited found leads opened derived merged checks))
      (fun part checks => .tail built' (.inherited found' leads opened' derived merged checks))

/-! ## Intersections -/

theorem agree_intersectionCheck {depth depth' : Nat} {s s' : Substitution} {type type' : TypeId}
    {members members' : List TypeId} (found : arena.lookup? type = some (.intersection members))
    (found' : arena.lookup? type' = some (.intersection members'))
    (form : List.Forall₂ (fun part part' => arena.Alike (s, part) (s', part')) members members')
    (whole : arena.Alike (s, type) (s', type'))
    (exact : options.superfluousPropertyCheck = options'.superfluousPropertyCheck)
    (built : IsBuilt arena root (.ofType options.superfluousPropertyCheck (s, type)))
    (built' : IsBuilt arena root (.ofType options'.superfluousPropertyCheck (s', type'))) :
    Agree I Eq (intersectionCheck depth compile ⟨arena, options, s⟩ type members)
      (intersectionCheck depth' compile' ⟨arena, options', s'⟩ type' members') := by
  have comparison := isComparison_agree I
  -- members are compiled without the check
  have part (member member' : TypeId) (inside : member ∈ members) (inside' : member' ∈ members')
      (alike : arena.Alike (s, member) (s', member')) :
      Agree I Eq (compile (Context.withExact ⟨arena, options, s⟩ false) member)
        (compile' (Context.withExact ⟨arena, options', s'⟩ false) member') := by
    have ignores : { options with superfluousPropertyCheck := false }.ignoreMethods = ignoreMethods := ignores
    have ignores' : { options' with superfluousPropertyCheck := false }.ignoreMethods = ignoreMethods :=
      ignores'
    exact h.agree_compile h' number ignores ignores' (.tail built (.conjunct found inside))
      (.tail built' (.conjunct found' inside')) ⟨alike, .inl rfl⟩
  unfold intersectionCheck
  refine comparison.bind (comparison.memberCalls ((forall₂_and_mem form).imp
    fun member member' ⟨alike, inside, inside'⟩ => part member member' inside inside' alike))
    fun calls _ same => ?_
  subst same
  have both : Context.exact ⟨arena, options, s⟩ = Context.exact ⟨arena, options', s'⟩ := exact
  rw [both]
  split
  · rename_i isExact
    refine .lift_bind fun keys keys' collected collected' => ?_
    obtain rfl := (whole.collectKeys options options' depth depth').related collected collected'
    split
    · rename_i keys
      have isExact : options.superfluousPropertyCheck = true := exact.trans isExact
      rw [isExact] at built
      have keySet := h.keySets keys (.tail built (.keys found collected))
      exact comparison.map _ (.of_keeps keySet keySet fun _ _ same same' => same.trans same'.symm)
    · exact comparison.pure rfl
  · exact comparison.pure rfl

/-! ## All descriptors -/

/-- Types that are alike have the same body, if they are checked for superfluous keys alike wherever that
makes a difference. -/
theorem agree_body {depth depth' : Nat} {s s' : Substitution} {type type' : TypeId}
    {descriptor descriptor' : Descriptor} (found : arena.lookup? type = some descriptor)
    (found' : arena.lookup? type' = some descriptor')
    (form : arena.SameForm arena.Alike s s' descriptor descriptor')
    (alike : (Subject.ofType options.superfluousPropertyCheck (s, type)).Alike arena
      (.ofType options'.superfluousPropertyCheck (s', type')))
    (built : IsBuilt arena root (.ofType options.superfluousPropertyCheck (s, type)))
    (built' : IsBuilt arena root (.ofType options'.superfluousPropertyCheck (s', type'))) :
    Agree I Eq (descriptor.body depth compile ⟨arena, options, s⟩ type)
      (descriptor'.body depth' compile' ⟨arena, options', s'⟩ type') := by
  have comparison := isComparison_agree I
  have plain (notParameter : ∀ id, descriptor ≠ .parameter id) : arena.StandsFor (s, type) (s, type) :=
    .itself fun id parameter => notParameter id (Option.some.inj (found.symm.trans parameter))
  -- what is marked is checked alike, and so are parts that are not marked while the whole is not
  have marked (notParameter : ∀ id, descriptor ≠ .parameter id) (marked : descriptor.isMarked = true) :
      options.superfluousPropertyCheck = options'.superfluousPropertyCheck :=
    alike.2.resolve_right (not_not.2 (.here (plain notParameter) found marked))
  have part (notParameter : ∀ id, descriptor ≠ .parameter id) {part part' : TypeId}
      (inside : part ∈ descriptor.children) (same : arena.Alike (s, part) (s', part')) :
      (Subject.ofType options.superfluousPropertyCheck (s, part)).Alike arena
        (.ofType options'.superfluousPropertyCheck (s', part')) := by
    refine ⟨same, alike.2.imp_right fun unmarked below => unmarked ?_⟩
    exact .part (plain notParameter) found inside below
  cases form with
  | @plain descriptor isPlain =>
    cases descriptor with
    | keyword word => cases word <;> first | exact comparison.pure rfl | exact comparison.throw _ _
    | stringLiteral | numberLiteral | booleanLiteral | buffer | view => exact comparison.pure rfl
    | _ => exact isPlain.elim
  | array related =>
    exact comparison.arrayBody (h.agree_askPart h' number ignores ignores' (.tail built (.element found))
      (.tail built' (.element found')) (part (by rintro _ ⟨⟩) List.mem_cons_self related))
  | tuple related =>
    refine comparison.map _ (comparison.tupleCheck related fun element inside element' inside' pair => ?_)
    have position := Relation.ReflTransGen.tail built (.position found inside)
    have position' := Relation.ReflTransGen.tail built' (.position found' inside')
    refine h.agree_compilePart h' number ignores ignores' position position'
      (.ofChoice ⟨pair.type, pair.optional⟩ ?_)
    exact (part (by rintro _ ⟨⟩) (List.mem_map_of_mem inside) pair.type).2
  | object related =>
    exact h.agree_objectBody h' number ignores ignores' related (marked (by rintro _ ⟨⟩) rfl)
      (fun _ checks => .tail built (.member found checks))
      (fun _ checks => .tail built' (.member found' checks))
  | union related =>
    refine comparison.map _ (comparison.unionCheck ((forall₂_and_mem related).imp ?_))
    rintro member member' ⟨same, inside, inside'⟩
    exact h.agree_compile h' number ignores ignores' (.tail built (.alternative found inside))
      (.tail built' (.alternative found' inside')) (part (by rintro _ ⟨⟩) inside same)
  | intersection related =>
    exact comparison.map _ (h.agree_intersectionCheck h' number ignores ignores' found found' related
      alike.1 (marked (by rintro _ ⟨⟩) rfl) built built')
  | reference same =>
    obtain rfl := same.leads
    refine .lift_bind fun definition definition' leads leads' => ?_
    obtain rfl : definition = definition' := by
      rw [Arena.target_eq_ok] at leads leads'
      exact Option.some.inj (leads.symm.trans leads')
    exact h.agree_referenceBody h' number ignores ignores' found found' (Arena.target_eq_ok.1 leads) same
      (marked (by rintro _ ⟨⟩) rfl) built built'
  | parameter impossible => exact impossible.elim
  | indexAccess => exact comparison.throw _ _
  | keyof related =>
    refine comparison.map _ (.lift_bind fun keys keys' collected collected' => ?_)
    obtain rfl := (related.collectKeys options options' depth depth').related collected collected'
    split <;> exact comparison.pure rfl

end Reliable

end Subject

end ShapeCheck
