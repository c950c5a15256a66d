import ShapeCheck.Proofs.Agreement.Bodies
import ShapeCheck.Proofs.Sealing.Strategies

set_option autoImplicit false

/-! # Registries that agree

A predicate is made by a strategy, started on some registry (`Subject.Made`). Along every compilation the
registry is steady: what it says about predicates that accept everything is told by their subjects, and a
name that waits for its predicate is none of these. So a predicate is determined by its name, up to what the
subjects tell, and where subjects are told apart, two compilations register the same predicate under a name,
in whatever order each of them has come to it.

Main facts: `Subject.Made.unique`, `Subject.reliable_compileWithin` (a compilation keeps registries steady)
and `Subject.IsMade.eq_of_name`.
-/

namespace ShapeCheck

/-! ## Steps from one invariant to another -/

section
variable {α β : Type} {I J : Registry → Prop}

/-- The step leads from registries with the first invariant to registries with the second one, and its
results satisfy the property. -/
def Attains (I J : Registry → Prop) (m : Build α) (Q : α → Prop) : Prop :=
  ∀ r a t, Gives m r a t → I r → J t ∧ Q a

namespace Attains

variable {Q : α → Prop} {Q' : β → Prop}

theorem throw (e : CompileError) : Attains I J (MonadExcept.throw e : Build α) Q :=
  fun _ _ _ outcome => absurd outcome gives_throw

theorem pure {a : α} (weaker : ∀ r, I r → J r) (good : Q a) : Attains I J (Pure.pure a : Build α) Q := by
  intro r b t outcome holds
  obtain ⟨rfl, rfl⟩ := gives_pure.1 outcome
  exact ⟨weaker r holds, good⟩

theorem bind {m : Build α} {f : α → Build β} (first : Keeps I m Q)
    (second : ∀ a, Q a → Attains I J (f a) Q') : Attains I J (m >>= f) Q' := by
  intro r b t outcome holds
  obtain ⟨a, u, made, rest⟩ := gives_bind.1 outcome
  obtain ⟨between, known⟩ := first r a u made holds
  exact second a known u b t rest between

theorem lift_bind {m : Except CompileError α} {f : α → Build β}
    (h : ∀ a, m = .ok a → Attains I J (f a) Q') : Attains I J ((liftM m : Build α) >>= f) Q' := by
  intro r b t outcome holds
  obtain ⟨a, made, rest⟩ := Build.gives_lift_bind.1 outcome
  exact h a made r b t rest holds

theorem of_keeps {m : Build α} (h : Keeps I m Q) (weaker : ∀ r, I r → J r) : Attains I J m Q := by
  intro r a t outcome holds
  obtain ⟨after, good⟩ := h r a t outcome holds
  exact ⟨weaker t after, good⟩

theorem mono {m : Build α} {P : α → Prop} (h : Attains I J m P) (weaker : ∀ a, P a → Q a) :
    Attains I J m Q := by
  intro r a t outcome holds
  obtain ⟨after, good⟩ := h r a t outcome holds
  exact ⟨after, weaker a good⟩

end Attains

end

/-- A name that is taken is all there is to build. -/
theorem Build.gives_ensure_known {name : String} {reason : Option Reason} {body : Build (List Stmt)}
    {r : Registry} (known : r.contains name = true) : Gives (ensure name reason body) r name r :=
  gives_bind.2 ⟨r, r, gives_get.2 ⟨rfl, rfl⟩, by simp [known]⟩

/-- A name that is not taken gets a predicate. -/
theorem Build.gives_ensure_fresh {name name' : String} {reason : Option Reason}
    {body : Build (List Stmt)} {r t : Registry} (fresh : ¬ r.contains name = true)
    (outcome : Gives (ensure name reason body) r name' t) :
    name' = name ∧ ∃ stmts u, Gives body (r.reserve name) stmts u ∧
      t = u.complete ⟨name, Expr.parameterName, stmts, reason⟩ := by
  obtain ⟨_, _, found, outcome⟩ := gives_bind.1 outcome
  obtain ⟨rfl, rfl⟩ := gives_get.1 found
  rw [if_neg fresh] at outcome
  obtain ⟨_, _, reserved, outcome⟩ := gives_bind.1 outcome
  obtain rfl := gives_modify.1 reserved
  obtain ⟨stmts, u, built, outcome⟩ := gives_bind.1 outcome
  obtain ⟨_, _, completed, outcome⟩ := gives_bind.1 outcome
  obtain rfl := gives_modify.1 completed
  obtain ⟨rfl, rfl⟩ := gives_pure.1 outcome
  exact ⟨rfl, stmts, u, built, rfl⟩

/-- A predicate is built unless its name is taken. -/
theorem Build.gives_ensure {name name' : String} {reason : Option Reason} {body : Build (List Stmt)}
    {r t : Registry} (outcome : Gives (ensure name reason body) r name' t) :
    name' = name ∧ (t = r ∨ ∃ stmts u, Gives body (r.reserve name) stmts u ∧
      t = u.complete ⟨name, Expr.parameterName, stmts, reason⟩) := by
  by_cases known : r.contains name = true
  · obtain ⟨rfl, rfl⟩ := (gives_ensure_known known).unique outcome
    exact ⟨rfl, .inl rfl⟩
  · obtain ⟨same, built⟩ := gives_ensure_fresh known outcome
    exact ⟨same, .inr built⟩

/-! ## Bodies that accept everything -/

namespace Descriptor

section
variable {depth : Nat} {compile : Context → TypeId → Build String} {ctx : Context} {type : TypeId}
  {descriptor : Descriptor}

theorem body_of_acceptsAll (all : descriptor.acceptsAll = true) :
    descriptor.body depth compile ctx type = pure [.result (.bool true)] := by
  cases descriptor with
  | keyword word => cases word <;> first | rfl | cases all
  | union members =>
    cases members with
    | nil => simp [body, unionCheck]
    | cons => cases all
  | _ => cases all

theorem arrayBody_ne_true (element : TypeId) :
    Keeps (fun _ => True) (arrayBody compile ctx element) (· ≠ [.result (.bool true)]) := by
  unfold arrayBody
  refine (Build.keeps_nothing _).bind fun name _ => Keeps.get_bind fun r _ => ?_
  split <;> exact .pure nofun

theorem objectBody_ne_true (shape : ObjectShape) :
    Keeps (fun _ => True) (objectBody compile ctx shape) (· ≠ [.result (.bool true)]) := by
  unfold objectBody
  refine (Build.keeps_nothing _).bind fun tests _ => (Build.keeps_nothing _).bind fun loops _ => .pure ?_
  split <;> nofun

theorem referenceBody_ne_true (definition : Definition) (arguments : List TypeId) :
    Keeps (fun _ => True) (referenceBody compile ctx definition arguments) (· ≠ [.result (.bool true)]) := by
  unfold referenceBody
  refine Keeps.lift_bind fun inside _ => Keeps.lift_bind fun body _ => ?_
  split
  · exact (Build.keeps_nothing _).bind fun name _ => .pure nofun
  · exact Keeps.lift_bind fun shape _ => objectBody_ne_true shape

/-- No other body says that everything is accepted. -/
theorem body_ne_true (some : descriptor.acceptsAll = false) :
    Keeps (fun _ => True) (descriptor.body depth compile ctx type) (· ≠ [.result (.bool true)]) := by
  have single {m : Build Expr} (h : Keeps (fun _ => True) m (· ≠ .bool true)) :
      Keeps (fun _ => True) (do return [.result (← m)] : Build (List Stmt)) (· ≠ [.result (.bool true)]) :=
    h.bind fun e different => .pure (by simpa using different)
  cases descriptor with
  | array element => exact arrayBody_ne_true element
  | object shape => exact objectBody_ne_true shape
  | reference target arguments =>
    exact Keeps.lift_bind fun definition _ => referenceBody_ne_true definition arguments
  | tuple elements => exact single ((Build.keeps_nothing _).bind fun tests _ => .pure nofun)
  | union members =>
    refine single ?_
    unfold unionCheck
    cases members with
    | nil => cases some
    | cons member rest =>
      refine Keeps.bind (Q := fun calls => ∃ names : List String, calls = names.map Expr.callOn)
        ((Build.keeps_nothing _).bind fun names _ => .pure ⟨_, rfl⟩) ?_
      rintro _ ⟨names, rfl⟩
      refine .pure ?_
      rcases names with _ | ⟨name, _ | ⟨name', names⟩⟩ <;> nofun
  | intersection members =>
    refine single ((Build.keeps_nothing _).bind fun calls _ => ?_)
    split
    · refine Keeps.lift_bind fun keys? _ => ?_
      split
      · exact (Build.keeps_nothing _).bind fun name _ => .pure nofun
      · exact .pure nofun
    · exact .pure nofun
  | keyof operand =>
    refine single (Keeps.lift_bind fun keys? _ => ?_)
    split <;> exact .pure nofun
  | keyword word => cases word <;> first | (cases some; done) | exact .throw _ | exact .pure nofun
  | stringLiteral | numberLiteral | booleanLiteral | buffer => exact .pure nofun
  | view kind => exact .pure (by simp [Leaf.ofView])
  | parameter | indexAccess => exact .throw _

end

end Descriptor

/-! ## Steady registries -/

namespace Subject

section
variable (arena : Arena) (ignoreMethods : Bool) (root : Subject)

/-- What the registry says about predicates that accept everything is told by their subjects, and all
finished predicates are good. -/
structure Steady (Good : Predicate → Prop) (r : Registry) : Prop where
  finished : r.Holds fun p => (p.isAlwaysTrue = true ↔ Vacuous arena root p.name) ∧ Good p
  waiting : ∀ name, r.isPending name = true → ¬ Vacuous arena root name

/-- A registry that is steady and sealed. -/
def Sound (Good : Predicate → Prop) (r : Registry) : Prop := r.IsSealed ∧ Steady arena root Good r

/-- The statements of the predicate for a set of keys. -/
def exactKeysBody (keys : List String) : List Stmt :=
  [.ifThen (.or [.not (.typeOfIs .parameter "object"), .strictEq .parameter .null]) [.result (.bool true)],
    exactKeysLoop keys, .result (.bool true)]

/-- The predicate is made for the subject, by a strategy that was started on some registry. -/
inductive Made : Subject → Predicate → Prop
  | body {options : CompileOptions} {s : Substitution} {type : TypeId} {descriptor : Descriptor} {depth : Nat}
      {r t : Registry} {stmts : List Stmt} {name : String} (found : arena.lookup? type = some descriptor)
      (ignores : options.ignoreMethods = ignoreMethods) (sound : Sound arena root (fun _ => True) r)
      (ran : Gives (descriptor.body depth (compileWithin depth) ⟨arena, options, s⟩ type) r stmts t) :
      Made (.ofType options.superfluousPropertyCheck (s, type))
        ⟨name, Expr.parameterName, stmts, descriptor.reason?⟩
  | access {exact : Bool} {s : Substitution} {type whole index : TypeId} {options : CompileOptions} {depth : Nat}
      {lists : List (List Choice)} {all : List String} {name : String}
      (found : arena.lookup? type = some (.indexAccess whole index))
      (chosen : arena.choices options depth s whole index = .ok lists)
      (named : List.Forall₂ (fun choice name => ∃ own, Bears arena own (.ofChoice exact choice) name)
        lists.flatten all) :
      Made (.ofType exact (s, type))
        ⟨name, Expr.parameterName, [.result (.or (all.eraseDups.map Expr.callOn))], none⟩
  | optional {own exact : Bool} {a : Reading} {inner name : String}
      (below : Bears arena own (.ofType exact a) inner) :
      Made (.optional exact a)
        ⟨name, Expr.parameterName, [.result (.or [.strictEq .parameter .undefined, .callOn inner])], none⟩
  | keySet (keys : List String) (name : String) :
      Made (.keySet keys) ⟨name, Expr.parameterName, exactKeysBody keys, none⟩

end

variable {arena : Arena} {ignoreMethods : Bool} {root : Subject} {Good : Predicate → Prop} {r : Registry}

theorem steady_empty : Steady arena root Good .empty := ⟨Registry.holds_empty, nofun⟩

theorem Steady.mono {Good' : Predicate → Prop} (h : Steady arena root Good r) (weaker : ∀ p, Good p → Good' p) :
    Steady arena root Good' r :=
  ⟨h.finished.mono fun p good => ⟨good.1, weaker p good.2⟩, h.waiting⟩

theorem Steady.reserve (h : Steady arena root Good r) {name : String} (some : ¬ Vacuous arena root name) :
    Steady arena root Good (r.reserve name) where
  finished := h.finished.reserve name
  waiting other pending := by
    rcases Registry.pending_reserve pending with earlier | rfl
    · exact h.waiting other earlier
    · exact some

/-- A predicate may be stored if it says of itself what its subject tells. -/
theorem Steady.complete (h : Steady arena root Good r) {p : Predicate}
    (told : p.isAlwaysTrue = true ↔ Vacuous arena root p.name) (good : Good p) :
    Steady arena root Good (r.complete p) where
  finished := h.finished.complete ⟨told, good⟩
  waiting other pending := h.waiting other (Registry.pending_complete pending).1

/-- The question for a predicate that accepts everything is answered by its subjects. -/
theorem Steady.isAlwaysTrue_iff (h : Steady arena root Good r) {name : String} (there : r.contains name = true) :
    r.isAlwaysTrue name = true ↔ Vacuous arena root name := by
  cases found : r.entries.lookup name with
  | none =>
    rw [Registry.contains_iff] at there
    obtain ⟨entry, listed, rfl⟩ := List.mem_map.1 there
    simpa using List.lookup_eq_none_iff.1 found entry listed
  | some entry =>
    cases entry with
    | none =>
      have pending : r.isPending name = true := by simp [Registry.isPending, found]
      simp [Registry.isAlwaysTrue, Registry.get?, found, h.waiting name pending]
    | some p =>
      obtain ⟨before, after, split, -⟩ := List.lookup_eq_some_iff.1 found
      obtain ⟨rfl, told, -⟩ := h.finished.finished name p (by simp [split])
      simpa [Registry.isAlwaysTrue, Registry.get?, found] using told

/-- Where subjects are told apart, a name of a subject that rejects something is that of no subject that
accepts everything by itself. -/
theorem not_vacuous (apart : ToldApart arena root) {subject : Subject} {name : String}
    (built : IsBuilt arena root subject) (bears : Bears arena true subject name)
    (some : ¬ subject.AcceptsAll arena) : ¬ Vacuous arena root name := by
  rintro ⟨other, built', bears', all⟩
  exact some (((apart _ _ name built' built bears' bears).acceptsAll_iff bears' bears).1 all)

/-! ## Building -/

section
variable {name : String} {reason : Option Reason} {body : Build (List Stmt)}

/-- A predicate that does not accept everything may be built by steps that keep registries sound. -/
theorem attains_ensure (some : ¬ Vacuous arena root name)
    (steps : Keeps (Sound arena root Good) body (· ≠ [.result (.bool true)]))
    (good : ∀ r stmts t, Gives body r stmts t → Sound arena root Good r →
      Good ⟨name, Expr.parameterName, stmts, reason⟩) :
    Attains (Sound arena root Good) (Steady arena root Good) (Build.ensure name reason body) (· = name) := by
  intro r other t outcome sound
  obtain ⟨rfl, rfl | ⟨stmts, u, ran, rfl⟩⟩ := Build.gives_ensure outcome
  · exact ⟨sound.2, rfl⟩
  · have reserved : Sound arena root Good (r.reserve other) := ⟨sound.1.reserve other, sound.2.reserve some⟩
    obtain ⟨between, different⟩ := steps _ _ _ ran reserved
    refine ⟨between.2.complete (iff_of_false ?_ some) (good _ _ _ ran reserved), rfl⟩
    rwa [Predicate.isAlwaysTrue_iff]

/-- A predicate that accepts everything is built at once. -/
theorem attains_ensure_true (all : Vacuous arena root name)
    (good : Good ⟨name, Expr.parameterName, [.result (.bool true)], reason⟩) :
    Attains (Sound arena root Good) (Steady arena root Good)
      (Build.ensure name reason (pure [.result (.bool true)])) (· = name) := by
  intro r _ t outcome sound
  obtain ⟨rfl, rfl | ⟨stmts, u, ran, rfl⟩⟩ := Build.gives_ensure outcome
  · exact ⟨sound.2, rfl⟩
  · obtain ⟨rfl, rfl⟩ := gives_pure.1 ran
    -- while the name is reserved the registry is not steady, so it is reserved and stored in one step
    refine ⟨⟨(sound.2.finished.reserve _).complete ⟨iff_of_true rfl all, good⟩, fun other pending => ?_⟩, rfl⟩
    obtain ⟨reserved, different⟩ := Registry.pending_complete pending
    exact sound.2.waiting other ((Registry.pending_reserve reserved).resolve_right different)

theorem attains_ensure_pure {stmts : List Stmt} (some : ¬ Vacuous arena root name)
    (different : stmts ≠ [.result (.bool true)]) (good : Good ⟨name, Expr.parameterName, stmts, reason⟩) :
    Attains (Sound arena root Good) (Steady arena root Good) (Build.ensure name reason (pure stmts))
      (· = name) := by
  refine attains_ensure some (.pure different) fun r stmts' t ran _ => ?_
  obtain ⟨rfl, -⟩ := gives_pure.1 ran
  exact good

/-- What only leads to steady registries leads to sound ones if it seals them. -/
theorem keeps_of_attains {m : Build String} {Q : String → Prop}
    (attains : Attains (Sound arena root Good) (Steady arena root Good) m Q) (seals : Seals [] m usesName) :
    Keeps (Sound arena root Good) m Q := by
  intro r name t outcome sound
  obtain ⟨steady, known⟩ := attains r name t outcome sound
  exact ⟨⟨(seals r name t outcome sound.1 nofun).1, steady⟩, known⟩

end

/-! ## Parts -/

section
variable (number : arena.lookup? (.ofKeyword .number) = some (.keyword .number))
  (apart : ToldApart arena root)
  (good : ∀ {subject} p, IsBuilt arena root subject → Bears arena true subject p.name →
    Made arena ignoreMethods root subject p → Good p)
include apart good

theorem reliable_of_compiles {compile : Context → TypeId → Build String}
    (seals : ∀ known ctx type, Seals known (compile ctx type) usesName)
    (compiles : ∀ options s type, options.ignoreMethods = ignoreMethods →
      IsBuilt arena root (.ofType options.superfluousPropertyCheck (s, type)) →
        Keeps (Sound arena root Good) (compile ⟨arena, options, s⟩ type) fun name =>
          ∃ own, Bears arena own (.ofType options.superfluousPropertyCheck (s, type)) name) :
    Reliable arena ignoreMethods root (Sound arena root Good) compile where
  compiles := compiles
  asks options s type ignores built := by
    intro r _ t outcome sound
    obtain ⟨name, u, made, rest⟩ := gives_bind.1 outcome
    obtain ⟨between, bears⟩ := compiles options s type ignores built r name u made sound
    obtain ⟨_, _, read, rest⟩ := gives_bind.1 rest
    obtain ⟨rfl, rfl⟩ := gives_get.1 read
    obtain ⟨rfl, rfl⟩ := gives_pure.1 rest
    have there := (seals [] _ _ r name u made sound.1 nofun).2.2 name List.mem_cons_self
    exact ⟨between, bears, between.2.isAlwaysTrue_iff there⟩
  chooses options choice ignores built := by
    obtain ⟨reading, leftOut⟩ := choice
    refine keeps_of_attains ?_ (compilePart_seals seals _ _ _)
    unfold compilePart
    cases leftOut with
    | false =>
      exact .bind (compiles options reading.1 reading.2 ignores built) fun name bears =>
        .pure (fun _ sound => sound.2) bears
    | true =>
      refine .bind (compiles options _ _ ignores (.tail built (.optional _ reading))) ?_
      rintro inner ⟨own, below⟩
      have bears := Bears.optional below
      have optional : Build.optional inner = Build.ensure (optionalName inner) none
          (pure [.result (.or [.strictEq .parameter .undefined, .callOn inner])]) := by
        rw [Build.optional, Build.ensureExpr, pure_bind]
        rfl
      rw [if_pos rfl, optional]
      refine (attains_ensure_pure (not_vacuous apart built bears id) (by simp)
        (good _ built bears (.optional below))).mono ?_
      rintro _ rfl
      exact ⟨true, bears⟩
  keySets keys built := by
    have bears : Bears arena true (.keySet keys) (exactKeysName keys) := .keySet keys
    refine keeps_of_attains ?_ (exactKeysPredicate_seals keys)
    exact attains_ensure_pure (not_vacuous apart built bears id) nofun (good _ built bears (.keySet keys _))

/-! ## Types -/

section
variable {depth : Nat} (h : Reliable arena ignoreMethods root (Sound arena root Good) (compileWithin depth))
  {options : CompileOptions} (ignores : options.ignoreMethods = ignoreMethods) {s : Substitution}
  {type : TypeId}
  (built : IsBuilt arena root (.ofType options.superfluousPropertyCheck (s, type)))
include number h ignores built

/-- The predicate of a type that is not compiled as others. -/
theorem attains_type {descriptor : Descriptor} (found : arena.lookup? type = some descriptor)
    (plain : descriptor.forwards = false) {m : Nat} {name : String}
    (spelled : typeNameWithin arena m s options.superfluousPropertyCheck type = .ok name)
    {body : Build (List Stmt)}
    (same : descriptor.body depth (compileWithin depth) ⟨arena, options, s⟩ type = body) :
    Attains (Sound arena root Good) (Steady arena root Good) (Build.ensure name descriptor.reason? body)
      fun _ => True := by
  have bears := Bears.type found plain spelled
  have notParameter (id : ParameterId) : descriptor ≠ .parameter id := by
    rintro rfl
    cases plain
  subst same
  refine Attains.mono (P := (· = name)) ?_ fun _ _ => trivial
  cases all : descriptor.acceptsAll with
  | true =>
    have ran : Gives (descriptor.body depth (compileWithin depth) ⟨arena, options, s⟩ type) .empty
        [.result (.bool true)] .empty := by
      rw [Descriptor.body_of_acceptsAll all]
      exact gives_pure.2 ⟨rfl, rfl⟩
    rw [Descriptor.body_of_acceptsAll all]
    exact attains_ensure_true ⟨_, built, bears, descriptor, found, all⟩
      (good _ built bears (.body found ignores ⟨Registry.isSealed_empty, steady_empty⟩ ran))
  | false =>
    have form : arena.SameForm arena.Alike s s descriptor descriptor :=
      .self (Arena.Alike.refl arena) notParameter
    have steps : Keeps (Sound arena root Good)
        (descriptor.body depth (compileWithin depth) ⟨arena, options, s⟩ type) fun _ => True :=
      (h.agree_body h number ignores ignores found found form ⟨.refl arena _, .inl rfl⟩ built built).keeps
    refine attains_ensure (not_vacuous apart built bears ?_)
      ((steps.and_result (Descriptor.body_ne_true all)).mono fun _ both => both.2) ?_
    · rintro ⟨other, found', all'⟩
      cases found.symm.trans found'
      exact absurd (all.symm.trans all') Bool.false_ne_true
    · intro r stmts t ran sound
      exact good _ built bears (.body found ignores ⟨sound.1, sound.2.mono fun _ _ => trivial⟩ ran)

/-- The predicate of an access, if it does not find one that serves as it is. -/
theorem attains_access {whole index : TypeId} (found : arena.lookup? type = some (.indexAccess whole index)) :
    Attains (Sound arena root Good) (Steady arena root Good)
      (compileIndexAccess depth (compileWithin depth) ⟨arena, options, s⟩ type whole index)
      fun _ => True := by
  unfold compileIndexAccess
  refine .lift_bind fun keys indexed => .bind (selectedMembers_keeps
    (fun choice built => h.chooses options choice ignores built) found built indexed) ?_
  rintro names ⟨lists, chosen, covers, full⟩
  split
  · exact .throw _
  · exact .pure (fun _ sound => sound.2) trivial
  · rename_i missing single
    refine .lift_bind fun name spelled => ?_
    have filled : AreFilled lists := by
      refine ⟨?_, full⟩
      rintro rfl
      cases covers
      exact missing rfl
    have bears := bears_of_several number found chosen filled covers missing single spelled
    obtain ⟨all, named, same⟩ := Covers.flatten covers
    have some : ¬ (Subject.ofType options.superfluousPropertyCheck (s, type)).AcceptsAll arena := by
      rintro ⟨descriptor, found', all⟩
      cases found.symm.trans found'
      cases all
    have made := good ⟨name, Expr.parameterName, [.result (.or (all.eraseDups.map Expr.callOn))], none⟩ built
      bears (.access found chosen named)
    rw [Build.ensureExpr, pure_bind, same]
    exact (attains_ensure_pure (not_vacuous apart built bears some) (by simp) made).mono fun _ _ => trivial

theorem attains_compileDescriptor {descriptor : Descriptor} (found : arena.lookup? type = some descriptor) :
    Attains (Sound arena root Good) (Steady arena root Good)
      (compileDescriptor depth (compileWithin depth) ⟨arena, options, s⟩ type descriptor) fun _ => True := by
  have reaches {m : Nat} {name : String} {body : Build (List Stmt)} (plain : descriptor.forwards = false)
      (spelled : typeNameWithin arena m s options.superfluousPropertyCheck type = .ok name)
      (same : descriptor.body depth (compileWithin depth) ⟨arena, options, s⟩ type = body) :=
    attains_type number apart good h ignores built found plain spelled same
  unfold compileDescriptor
  split
  · rename_i leaf isLeaf
    have plain : descriptor.forwards = false := by
      cases descriptor <;> first | rfl | cases isLeaf
    have spelled : typeNameWithin arena 1 s options.superfluousPropertyCheck type = .ok leaf.name := by
      rw [typeNameWithin, Arena.lookup_eq_ok.2 found]
      exact descriptor.leaf?_name isLeaf arena _ _ _
    have same : descriptor.body depth (compileWithin depth) ⟨arena, options, s⟩ type =
        pure [.result leaf.check] := by
      cases descriptor <;> first | (cases isLeaf; done) | simp only [Descriptor.body, isLeaf]
    rw [Build.ensureExpr, pure_bind, show leaf.reason = descriptor.reason? by rw [Descriptor.reason?, isLeaf]; rfl]
    exact reaches plain spelled same
  cases descriptor with
  | array element => exact .lift_bind fun name spelled => reaches rfl spelled rfl
  | tuple elements => exact .lift_bind fun name spelled => reaches rfl spelled rfl
  | object shape => exact .lift_bind fun name spelled => reaches rfl spelled rfl
  | union members => exact .lift_bind fun name spelled => reaches rfl spelled rfl
  | intersection members => exact .lift_bind fun name spelled => reaches rfl spelled rfl
  | keyof operand => exact .lift_bind fun name spelled => reaches rfl spelled rfl
  | reference target arguments =>
    refine .lift_bind fun definition leads => .lift_bind fun name spelled => reaches rfl spelled ?_
    have leads : arena.target type target = .ok definition := leads
    rw [Descriptor.body, leads, Build.liftM_ok, pure_bind]
  | parameter id =>
    refine .lift_bind fun stood stands => ?_
    obtain ⟨target, visible⟩ := stood
    obtain ⟨outer, resolved, rfl⟩ := Context.resolve_eq_ok stands
    have part := h.compiles options outer target ignores (.tail built (.parameter found resolved))
    exact (Attains.of_keeps part fun _ sound => sound.2).mono fun _ _ => trivial
  | indexAccess whole index => exact attains_access number apart good h ignores built found
  | _ => exact .throw _

end

include number in
/-- A compilation keeps registries sound, and its parts are told by their subjects. -/
theorem reliable_compileWithin (depth : Nat) :
    Reliable arena ignoreMethods root (Sound arena root Good) (compileWithin depth) := by
  refine reliable_of_compiles apart good (compileWithin_seals depth) ?_
  induction depth with
  | zero => exact fun _ _ _ _ _ => .throw _
  | succ depth ih =>
    intro options s type ignores built
    have h := reliable_of_compiles apart good (compileWithin_seals depth) ih
    refine ((keeps_of_attains (Q := fun _ => True) (.lift_bind fun descriptor found => ?_)
      (compileWithin_seals (depth + 1) [] _ type)).and_result
        (bears_compileWithin number (depth + 1) options s type)).mono fun _ both => both.2
    exact attains_compileDescriptor number apart good h ignores built (Arena.lookup_eq_ok.1 found)

end

/-! ## Predicates are determined -/

theorem eq_of_forall₂ {α β : Type} {P Q : α → β → Prop} {R : α → α → Prop} {as as' : List α} {bs bs' : List β}
    (h : List.Forall₂ P as bs) (h' : List.Forall₂ Q as' bs') (related : List.Forall₂ R as as')
    (same : ∀ a b a' b', R a a' → P a b → Q a' b' → b = b') : bs = bs' := by
  induction related generalizing bs bs' with
  | nil =>
    cases h
    cases h'
    rfl
  | cons here _ ih =>
    cases h with
    | cons first rest =>
      cases h' with
      | cons first' rest' => rw [same _ _ _ _ here first first', ih rest rest']

section
variable (number : arena.lookup? (.ofKeyword .number) = some (.keyword .number))
  (apart : ToldApart arena root)
include number apart

omit number apart in
/-- What is alike to an access, and no parameter, is an access. -/
theorem exists_access {a b : Reading} (alike : arena.Alike a b) {whole index : TypeId}
    (found : arena.lookup? b.2 = some (.indexAccess whole index))
    (notParameter : ∀ id, arena.lookup? a.2 ≠ some (.parameter id)) :
    ∃ whole' index', arena.lookup? a.2 = some (.indexAccess whole' index') ∧
      arena.Alike (a.1, whole') (b.1, whole) ∧ arena.Alike (a.1, index') (b.1, index) := by
  have forms := alike.forms notParameter fun id parameter => by cases found.symm.trans parameter
  rw [found] at forms
  cases found' : arena.lookup? a.2 <;> rw [found'] at forms <;> cases forms
  rename_i form
  cases form with
  | plain isPlain => exact isPlain.elim
  | indexAccess alike alike' => exact ⟨_, _, rfl, alike, alike'⟩

omit number apart in
theorem not_parameter_of_body {depth : Nat} {compile : Context → TypeId → Build String} {ctx : Context}
    {type : TypeId} {descriptor : Descriptor} {r t : Registry} {stmts : List Stmt}
    (found : arena.lookup? type = some descriptor)
    (ran : Gives (descriptor.body depth compile ctx type) r stmts t) :
    descriptor.forwards = false ∧ ∀ id, arena.lookup? type ≠ some (.parameter id) := by
  have plain : descriptor.forwards = false := by
    cases descriptor with
    | parameter | indexAccess => exact absurd ran gives_throw
    | _ => rfl
  refine ⟨plain, fun id parameter => ?_⟩
  cases found.symm.trans parameter
  cases plain

/-- Two predicates of one name that are made for subjects that are alike are the same. -/
theorem Made.unique {subject subject' : Subject} {p p' : Predicate} (built : IsBuilt arena root subject)
    (built' : IsBuilt arena root subject') (made : Made arena ignoreMethods root subject p)
    (made' : Made arena ignoreMethods root subject' p') (alike : subject.Alike arena subject')
    (same : p.name = p'.name) : p = p' := by
  have reliable (depth : Nat) :
      Reliable arena ignoreMethods root (Sound arena root fun _ => True) (compileWithin depth) :=
    reliable_compileWithin number apart (fun _ _ _ _ => trivial) depth
  cases made with
  | @body options s type descriptor depth r t stmts name found ignores sound ran =>
    obtain ⟨plain, notParameter⟩ := not_parameter_of_body found ran
    cases made' with
    | @body options' s' type' descriptor' depth' r' t' stmts' name' found' ignores' sound' ran' =>
      have forms := alike.1.forms notParameter (not_parameter_of_body found' ran').2
      simp only [found, found'] at forms
      cases forms with
      | some form =>
        have reason : descriptor.reason? = descriptor'.reason? := by
          cases form <;> rfl
        obtain ⟨rfl, -⟩ := (reliable depth).agree_body (reliable depth') number ignores ignores' found found'
          form alike built built' r _ t r' _ t' ran ran' sound sound'
        obtain rfl := same
        rw [reason]
    | access found' =>
      obtain ⟨_, _, known, -⟩ := exists_access alike.1 found' notParameter
      cases found.symm.trans known
      cases plain
    | optional | keySet => exact alike.elim
  | @access exact s type whole index options depth lists all name found chosen named =>
    cases made' with
    | body found' _ _ ran' =>
      obtain ⟨plain, notParameter⟩ := not_parameter_of_body found' ran'
      obtain ⟨_, _, known, -⟩ := exists_access alike.1.symm found notParameter
      cases found'.symm.trans known
      cases plain
    | @access exact' s' type' whole' index' options' depth' lists' all' name' found' chosen' named' =>
      obtain ⟨_, _, known, wholes, indexes⟩ := exists_access alike.1 found' fun id parameter => by
        cases found.symm.trans parameter
      cases found.symm.trans known
      obtain rfl : exact = exact' := alike.2.resolve_right (not_not.2 (.here (.itself fun id parameter => by
        cases found.symm.trans parameter) found rfl))
      have related := (Arena.Alike.choices number wholes indexes options options' depth depth').related
        chosen chosen'
      have names : all = all' := eq_of_forall₂ named named' (List.rel_flatten related)
        fun _ _ _ _ choices ⟨_, bears⟩ ⟨_, bears'⟩ => bears.unique number (.ofChoice choices (.inl rfl)) bears'
      obtain rfl := same
      rw [names]
    | optional | keySet => exact alike.elim
  | @optional own exact a inner name below =>
    cases made' with
    | @optional own' exact' a' inner' name' below' =>
      have alike : (Subject.ofType exact a).Alike arena (.ofType exact' a') := alike
      obtain rfl := below.unique number alike below'
      obtain rfl := same
      rfl
    | body | access | keySet => exact alike.elim
  | keySet keys name =>
    cases made' with
    | keySet keys' name' =>
      obtain rfl := alike
      obtain rfl := same
      rfl
    | body | access | optional => exact alike.elim

/-- All finished predicates are made for subjects that bear their names. -/
def IsMade (arena : Arena) (ignoreMethods : Bool) (root : Subject) (p : Predicate) : Prop :=
  ∃ subject, IsBuilt arena root subject ∧ Bears arena true subject p.name ∧ Made arena ignoreMethods root subject p

/-- Two compilations register the same predicate under a name. -/
theorem IsMade.eq_of_name {p p' : Predicate} (made : IsMade arena ignoreMethods root p)
    (made' : IsMade arena ignoreMethods root p') (same : p.name = p'.name) : p = p' := by
  obtain ⟨subject, built, bears, made⟩ := made
  obtain ⟨subject', built', bears', made'⟩ := made'
  rw [← same] at bears'
  exact made.unique number apart built built' made' (apart _ _ _ built built' bears bears') same

/-- A compilation of a subject that is built registers what is made for subjects. -/
theorem holds_isMade_compileWithin {options : CompileOptions} {s : Substitution} {type : TypeId}
    (ignores : options.ignoreMethods = ignoreMethods)
    (built : IsBuilt arena root (.ofType options.superfluousPropertyCheck (s, type))) (depth : Nat)
    {name : String} {r : Registry} (outcome : Gives (compileWithin depth ⟨arena, options, s⟩ type) .empty name r) :
    r.Holds (IsMade arena ignoreMethods root) := by
  have reliable : Reliable arena ignoreMethods root (Sound arena root (IsMade arena ignoreMethods root))
      (compileWithin depth) :=
    reliable_compileWithin number apart (fun p built bears made => ⟨_, built, bears, made⟩) depth
  obtain ⟨sound, -⟩ := reliable.compiles options s type ignores built _ _ _ outcome
    ⟨Registry.isSealed_empty, steady_empty⟩
  exact sound.2.finished.mono fun _ good => good.2

/-- The same of a part that may be optional. -/
theorem holds_isMade_compilePart {options : CompileOptions} {choice : Choice}
    (ignores : options.ignoreMethods = ignoreMethods)
    (built : IsBuilt arena root (.ofChoice options.superfluousPropertyCheck choice)) (depth : Nat) {name : String}
    {r : Registry} (outcome : Gives (compilePart (compileWithin depth) ⟨arena, options, choice.reading.1⟩
      choice.reading.2 choice.optional) .empty name r) : r.Holds (IsMade arena ignoreMethods root) := by
  have reliable : Reliable arena ignoreMethods root (Sound arena root (IsMade arena ignoreMethods root))
      (compileWithin depth) :=
    reliable_compileWithin number apart (fun p built bears made => ⟨_, built, bears, made⟩) depth
  obtain ⟨sound, -⟩ := reliable.chooses options choice ignores built _ _ _ outcome
    ⟨Registry.isSealed_empty, steady_empty⟩
  exact sound.2.finished.mono fun _ good => good.2

end

end Subject

end ShapeCheck
