import ShapeCheck.Proofs.Narrowing.Sameness

set_option autoImplicit false

/-! # What types that are alike have in common

Types that are alike have the same name, the same keys, and as an index they select the same keys. A run
may still end at a limit for one of them only: how deeply a type lies makes a difference for that. So
these facts are stated as `Repeats`: where one run succeeds, the other one gives the same, or it ends at
a limit.

Main facts: `Arena.Alike.typeNameWithin`, `Arena.Alike.collectKeysWithin` and
`Arena.Alike.indexKeysWithin`.
-/

namespace ShapeCheck

/-! ## Repeated runs -/

/-- Something was nested or unfolded further than is allowed. -/
def CompileError.IsLimit (e : CompileError) : Prop := e.IsTooDeep ∨ ∃ type, e = .endless type

section
variable {α β γ δ : Type} {R : α → β → Prop} {R' : γ → δ → Prop}

/-- Where the second run succeeds, the first one succeeds with a related result, or ends at a limit. -/
def Repeats (R : α → β → Prop) (x : Except CompileError α) (y : Except CompileError β) : Prop :=
  ∀ b, y = .ok b → (∃ a, x = .ok a ∧ R a b) ∨ ∃ e, x = .error e ∧ e.IsLimit

namespace Repeats

variable {x : Except CompileError α} {y : Except CompileError β}

theorem ok {a : α} {b : β} (h : R a b) : Repeats R (.ok a) (.ok b) := by
  rintro _ ⟨⟩
  exact .inl ⟨a, rfl, h⟩

theorem refl (x : Except CompileError α) : Repeats Eq x x := fun a made => .inl ⟨a, made, rfl⟩

theorem failed (x : Except CompileError α) (e : CompileError) : Repeats R x (.error e) := nofun

theorem stopped {e : CompileError} (h : e.IsLimit) (y : Except CompileError β) :
    Repeats R (.error e) y :=
  fun _ _ => .inr ⟨e, rfl, h⟩

theorem mono {Q : α → β → Prop} (h : Repeats R x y) (weaker : ∀ a b, R a b → Q a b) : Repeats Q x y :=
  fun b made => (h b made).imp_left fun ⟨a, made, related⟩ => ⟨a, made, weaker a b related⟩

/-- The first run alone takes a further step. -/
theorem bind_left {f : α → Except CompileError γ} {y : Except CompileError δ}
    (first : OnlyErrors CompileError.IsLimit x) (second : ∀ a, x = .ok a → Repeats R' (f a) y) :
    Repeats R' (x >>= f) y := by
  cases x with
  | error e => exact stopped (first e rfl) y
  | ok a => exact second a rfl

/-- The second run alone takes a further step. -/
theorem bind_right {x : Except CompileError γ} {g : β → Except CompileError δ}
    (second : ∀ b, y = .ok b → Repeats R' x (g b)) : Repeats R' x (y >>= g) := by
  cases y with
  | error e => exact failed x e
  | ok b => exact second b rfl

theorem bind {f : α → Except CompileError γ} {g : β → Except CompileError δ} (first : Repeats R x y)
    (second : ∀ a b, R a b → Repeats R' (f a) (g b)) : Repeats R' (x >>= f) (y >>= g) := by
  refine bind_right fun b made => ?_
  rcases first b made with ⟨a, rfl, related⟩ | ⟨e, rfl, limit⟩
  · exact second a b related
  · exact stopped limit _

theorem of_follows (h : Follows Never R x y) : Repeats R x y := by
  rintro b rfl
  rcases h.exists_ok_or_stopped with found | ⟨_, _, impossible⟩
  · exact .inl found
  · exact impossible.elim

theorem mapM {f : α → Except CompileError γ} {g : β → Except CompileError δ} {as : List α} {bs : List β}
    (items : List.Forall₂ (fun a b => Repeats R' (f a) (g b)) as bs) :
    Repeats (List.Forall₂ R') (as.mapM f) (bs.mapM g) := by
  induction items with
  | nil => exact ok .nil
  | cons here _ ih =>
    rw [List.mapM_cons, List.mapM_cons]
    exact here.bind fun c d first => ih.bind fun cs ds rest => ok (.cons first rest)

theorem foldlM {f : γ → α → Except CompileError γ} {g : δ → β → Except CompileError δ} {as : List α}
    {bs : List β} (items : List.Forall₂ R as bs)
    (step : ∀ c d a b, R' c d → R a b → Repeats R' (f c a) (g d b)) {c : γ} {d : δ} (start : R' c d) :
    Repeats R' (as.foldlM f c) (bs.foldlM g d) := by
  induction items generalizing c d with
  | nil => exact ok start
  | cons here _ ih =>
    rw [List.foldlM_cons, List.foldlM_cons]
    exact (step _ _ _ _ start here).bind fun c d next => ih next

/-- Results of both runs are related. -/
theorem related (h : Repeats R x y) {a : α} {b : β} (made : x = .ok a) (made' : y = .ok b) : R a b := by
  rcases h b made' with ⟨a', again, related⟩ | ⟨e, failed, -⟩
  · cases made.symm.trans again
    exact related
  · cases made.symm.trans failed

/-- If the second run succeeds, the first one only fails at a limit. -/
theorem onlyLimits (h : Repeats R x y) {b : β} (made : y = .ok b) : OnlyErrors CompileError.IsLimit x := by
  rintro e rfl
  rcases h b made with ⟨a, impossible, -⟩ | ⟨e', same, limit⟩
  · cases impossible
  · cases same
    exact limit

end Repeats

end

/-! ## Steps that are repeated -/

section
variable {arena : Arena} {s s' : Substitution} {a b : Reading}

theorem repeats_lookup {R : Descriptor → Descriptor → Prop} {type type' : TypeId}
    (forms : Option.Rel R (arena.lookup? type) (arena.lookup? type')) :
    Repeats R (arena.lookup type) (arena.lookup type') := by
  unfold Arena.lookup
  cases here : arena.lookup? type <;> cases there : arena.lookup? type' <;> rw [here, there] at forms <;>
    cases forms
  · exact .failed _ _
  · rename_i related
    exact .ok related

theorem repeats_target (type type' : TypeId) (target : DefinitionId) :
    Repeats (fun definition definition' =>
        definition = definition' ∧ arena.definition? target = some definition)
      (arena.target type target) (arena.target type' target) := by
  unfold Arena.target
  cases leads : arena.definition? target with
  | none => exact .failed _ _
  | some definition => exact .ok ⟨rfl, rfl⟩

theorem repeats_requireBody (definition : Definition) :
    Repeats (fun body body' => body = body' ∧ definition.body = some body) definition.requireBody
      definition.requireBody := by
  intro body given
  exact .inl ⟨body, given, rfl, Definition.requireBody_eq_ok.1 given⟩

theorem Substitution.onlyLimits_enter (arena : Arena) (s : Substitution) (definition : Definition)
    (arguments : List TypeId) :
    OnlyErrors CompileError.IsLimit (s.enter arena definition arguments) := by
  intro e failed
  refine .inl (Context.onlyTooDeep_enter ⟨arena, {}, s⟩ definition arguments e ?_)
  simp only [Context.enter, failed, bind, Except.bind]

theorem Context.resolve_eq_ok {options : CompileOptions} {id : ParameterId} {target : TypeId}
    {visible : Context} (stands : Context.resolve ⟨arena, options, s⟩ id = .ok (target, visible)) :
    ∃ outer, s.resolve arena id = .ok (target, outer) ∧ visible = ⟨arena, options, outer⟩ := by
  obtain ⟨⟨type, outer⟩, resolved, made⟩ := bind_eq_ok.1 stands
  cases made
  exact ⟨outer, resolved, rfl⟩

theorem Context.onlyLimits_resolve {options : CompileOptions} {id : ParameterId}
    (deep : ∀ e, s.resolve arena id = .error e → e.IsTooDeep) :
    OnlyErrors CompileError.IsLimit (Context.resolve ⟨arena, options, s⟩ id) :=
  OnlyErrors.bind (fun e failed => .inl (deep e failed)) fun _ _ => .ok _

/-- The insides of two references to one definition are alike. -/
def Arena.AlikeInside (arena : Arena) (definition : Definition) (t t' : Substitution) : Prop :=
  ∀ part, arena.IsInside definition part → arena.Alike (t, part) (t', part)

theorem Arena.SameReference.enter {target target' : DefinitionId} {arguments arguments' : List TypeId}
    (same : arena.SameReference arena.Alike s s' target arguments target' arguments')
    {definition : Definition} (leads : arena.definition? target = some definition) :
    Repeats (arena.AlikeInside definition) (s.enter arena definition arguments)
      (s'.enter arena definition arguments') := by
  intro t' opened'
  cases opened : s.enter arena definition arguments with
  | error e => exact .inr ⟨e, rfl, s.onlyLimits_enter arena definition arguments e opened⟩
  | ok t =>
    obtain ⟨bindings, bound, rfl⟩ := Substitution.enter_eq_within opened
    obtain ⟨bindings', bound', rfl⟩ := Substitution.enter_eq_within opened'
    have contents := same.contents definition leads
    simp only [bound, bound', Follows] at contents
    exact .inl ⟨_, rfl, contents⟩

theorem Arena.SameReference.enterContext {target target' : DefinitionId} {arguments arguments' : List TypeId}
    (same : arena.SameReference arena.Alike s s' target arguments target' arguments')
    {definition : Definition} (leads : arena.definition? target = some definition)
    (options options' : CompileOptions) :
    Repeats (fun inside inside' => ∃ t t', inside = ⟨arena, options, t⟩ ∧ inside' = ⟨arena, options', t'⟩ ∧
        arena.AlikeInside definition t t')
      (Context.enter ⟨arena, options, s⟩ definition arguments)
      (Context.enter ⟨arena, options', s'⟩ definition arguments') :=
  (same.enter leads).bind fun t t' alike => .ok ⟨t, t', rfl, rfl, alike⟩

theorem Arena.AlikeInside.parts {definition : Definition} {t t' : Substitution}
    (h : arena.AlikeInside definition t t') {body : TypeId} (given : definition.body = some body) :
    List.Forall₂ (fun part part' => arena.Alike (t, part) (t', part')) (body :: definition.bases)
      (body :: definition.bases) :=
  .cons (h body (.inl given)) (List.forall₂_same.2 fun base listed => h base (.inr (.inl listed)))

/-! ## Keys -/

theorem repeats_gatherKeys {keysOf keysOf' : TypeId → Except CompileError KeySet} {types types' : List TypeId}
    (h : List.Forall₂ (fun type type' => Repeats Eq (keysOf type) (keysOf' type')) types types')
    (known : List String) :
    Repeats Eq (gatherKeys keysOf known types) (gatherKeys keysOf' known types') := by
  induction h generalizing known with
  | nil => exact .refl _
  | cons here _ ih =>
    unfold gatherKeys
    refine here.bind fun found _ same => ?_
    subst same
    cases found with
    | none => exact .refl _
    | some keys => exact ih _

theorem Context.onlyLimits_describe (ctx : Context) (depth : Nat) (type : TypeId) :
    OnlyErrors CompileError.IsLimit (ctx.describe depth type) := by
  intro e failed
  unfold describe at failed
  split at failed
  · cases failed
  · cases failed
    exact .inr ⟨_, rfl⟩
  · cases failed

theorem collectKeysWithin_parameter {ctx : Context} {type : TypeId} {id : ParameterId}
    (found : ctx.arena.lookup? type = some (.parameter id)) (depth steps : Nat) :
    collectKeysWithin depth (steps + 1) ctx type =
      (ctx.resolve id >>= fun stands => collectKeysWithin depth steps stands.2 stands.1) := by
  simp only [collectKeysWithin, Arena.lookup_eq_ok.2 found, bind, Except.bind]

/-- Types that are alike have the same keys, whatever the options are. -/
theorem Arena.Alike.collectKeysWithin (h : arena.Alike a b) (options options' : CompileOptions)
    (depth depth' m n : Nat) :
    Repeats Eq (ShapeCheck.collectKeysWithin depth m ⟨arena, options, a.1⟩ a.2)
      (ShapeCheck.collectKeysWithin depth' n ⟨arena, options', b.1⟩ b.2) := by
  refine Arena.Alike.induction (P := fun m a n b =>
    Repeats Eq (ShapeCheck.collectKeysWithin depth m ⟨arena, options, a.1⟩ a.2)
      (ShapeCheck.collectKeysWithin depth' n ⟨arena, options', b.1⟩ b.2)) ?_ ?_ ?_ ?_ ?_ m n h
  · intro m a b
    exact .bind_right fun name _ => .failed _ _
  · intro a n b
    refine .bind_left (Context.onlyLimits_describe _ _ _) fun name _ => ?_
    exact .stopped (.inl ⟨_, _, rfl⟩) _
  · intro m a n s type id found ih
    rw [collectKeysWithin_parameter (by exact found)]
    refine .bind_right fun stands resolved => ?_
    obtain ⟨outer, resolved, same⟩ := Context.resolve_eq_ok resolved
    rw [same]
    exact ih _ outer resolved
  · intro m s type id n b found deep ih
    rw [collectKeysWithin_parameter (by exact found)]
    refine .bind_left (Context.onlyLimits_resolve deep) fun stands resolved => ?_
    obtain ⟨outer, resolved, same⟩ := Context.resolve_eq_ok resolved
    rw [same]
    exact ih _ outer resolved
  · intro m s type n s' type' forms ih
    unfold ShapeCheck.collectKeysWithin
    refine (repeats_lookup forms).bind fun descriptor descriptor' pair => ?_
    cases pair with
    | @plain descriptor isPlain =>
      cases descriptor with
      | keyword word => cases word <;> exact .refl _
      | stringLiteral | numberLiteral | booleanLiteral | buffer | view => exact .refl _
      | _ => exact isPlain.elim
    | object related =>
      simp only [related.index_isNone, related.keys_eq]
      exact .refl _
    | union related => exact repeats_gatherKeys (related.imp fun _ _ part => ih _ _ part) []
    | intersection related => exact repeats_gatherKeys (related.imp fun _ _ part => ih _ _ part) []
    | @reference target target' arguments arguments' same =>
      obtain rfl := same.leads
      refine (repeats_target _ _ target).bind fun definition _ leads => ?_
      obtain ⟨rfl, leads⟩ := leads
      refine (same.enterContext leads _ _).bind fun inside inside' within => ?_
      obtain ⟨t, t', rfl, rfl, alike⟩ := within
      refine (repeats_requireBody definition).bind fun body _ given => ?_
      obtain ⟨rfl, given⟩ := given
      exact repeats_gatherKeys ((alike.parts given).imp fun _ _ part => ih _ _ part) []
    | parameter impossible => exact impossible.elim
    | array | tuple | indexAccess | keyof => exact .refl _

theorem Arena.Alike.collectKeys (h : arena.Alike a b) (options options' : CompileOptions)
    (depth depth' : Nat) :
    Repeats Eq (Context.collectKeys ⟨arena, options, a.1⟩ depth a.2)
      (Context.collectKeys ⟨arena, options', b.1⟩ depth' b.2) :=
  h.collectKeysWithin options options' depth depth' _ _

/-! ## Index types -/

theorem indexKeysWithin_parameter {ctx : Context} {type : TypeId} {id : ParameterId}
    (found : ctx.arena.lookup? type = some (.parameter id)) (depth steps : Nat) :
    indexKeysWithin depth (steps + 1) ctx type =
      (ctx.resolve id >>= fun stands => indexKeysWithin depth steps stands.2 stands.1) := by
  simp only [indexKeysWithin, Arena.lookup_eq_ok.2 found, bind, Except.bind]

/-- As index types, types that are alike select the same keys, whatever the options are. -/
theorem Arena.Alike.indexKeysWithin (h : arena.Alike a b) (options options' : CompileOptions)
    (depth depth' m n : Nat) :
    Repeats Eq (ShapeCheck.indexKeysWithin depth m ⟨arena, options, a.1⟩ a.2)
      (ShapeCheck.indexKeysWithin depth' n ⟨arena, options', b.1⟩ b.2) := by
  refine Arena.Alike.induction (P := fun m a n b =>
    Repeats Eq (ShapeCheck.indexKeysWithin depth m ⟨arena, options, a.1⟩ a.2)
      (ShapeCheck.indexKeysWithin depth' n ⟨arena, options', b.1⟩ b.2)) ?_ ?_ ?_ ?_ ?_ m n h
  · exact fun m a b => .failed _ _
  · exact fun a n b => .stopped (.inl ⟨_, _, rfl⟩) _
  · intro m a n s type id found ih
    rw [indexKeysWithin_parameter (by exact found)]
    refine .bind_right fun stands resolved => ?_
    obtain ⟨outer, resolved, same⟩ := Context.resolve_eq_ok resolved
    rw [same]
    exact ih _ outer resolved
  · intro m s type id n b found deep ih
    rw [indexKeysWithin_parameter (by exact found)]
    refine .bind_left (Context.onlyLimits_resolve deep) fun stands resolved => ?_
    obtain ⟨outer, resolved, same⟩ := Context.resolve_eq_ok resolved
    rw [same]
    exact ih _ outer resolved
  · intro m s type n s' type' forms ih
    unfold ShapeCheck.indexKeysWithin
    refine (repeats_lookup forms).bind fun descriptor descriptor' pair => ?_
    cases pair with
    | @plain descriptor isPlain =>
      cases descriptor with
      | keyword word => cases word <;> first | exact .refl _ | exact .failed _ _
      | stringLiteral | numberLiteral => exact .refl _
      | booleanLiteral | buffer | view => exact .failed _ _
      | _ => exact isPlain.elim
    | union related =>
      refine Repeats.foldlM related (fun known _ member member' same here => ?_) rfl
      subst same
      exact (ih _ _ here).bind fun keys _ same => same ▸ .refl _
    | @reference target target' arguments arguments' same =>
      obtain rfl := same.leads
      refine (repeats_target _ _ target).bind fun definition _ leads => ?_
      obtain ⟨rfl, leads⟩ := leads
      refine (repeats_requireBody definition).bind fun body _ given => ?_
      obtain ⟨rfl, given⟩ := given
      refine (same.enterContext leads _ _).bind fun inside inside' within => ?_
      obtain ⟨t, t', rfl, rfl, alike⟩ := within
      exact ih _ _ (alike body (.inl given))
    | keyof related =>
      exact (Arena.Alike.collectKeys related _ _ _ _).bind fun found _ same => same ▸ .refl _
    | parameter impossible => exact impossible.elim
    | object | array | tuple | intersection | indexAccess => exact .failed _ _

theorem Arena.Alike.indexKeys (h : arena.Alike a b) (options options' : CompileOptions)
    (depth depth' : Nat) :
    Repeats Eq (Context.indexKeys ⟨arena, options, a.1⟩ depth a.2)
      (Context.indexKeys ⟨arena, options', b.1⟩ depth' b.2) :=
  h.indexKeysWithin options options' depth depth' _ _

/-! ## Names -/

/-- The two are the same under a condition. -/
def SameIf (condition : Prop) {α : Type} (x y : α) : Prop := condition → x = y

theorem Repeats.map {α β : Type} {condition : Prop} {x y : Except CompileError α} {f g : α → β}
    (h : Repeats (SameIf condition) x y) (same : condition → f = g) :
    Repeats (SameIf condition) (do return f (← x)) (do return g (← y)) :=
  h.bind fun _ _ related => .ok fun holds => by rw [related holds, same holds]

theorem Repeats.map_mapM {α β : Type} {condition : Prop} {f g : α → Except CompileError String}
    {as bs : List α} {join : List String → β}
    (items : List.Forall₂ (fun a b => Repeats (SameIf condition) (f a) (g b)) as bs) :
    Repeats (SameIf condition) (do return join (← as.mapM f)) (do return join (← bs.mapM g)) := by
  refine (Repeats.mapM items).bind fun names names' related => .ok fun holds => ?_
  have same : names = names' := List.forall₂_eq_eq_eq ▸ related.imp fun _ _ same => same holds
  rw [same]

section
variable {name name' : Substitution → Bool → TypeId → Except CompileError String}
  {R : TypeId → TypeId → Prop} {exact exact' : Bool}
  (named : ∀ type type' exact exact', R type type' →
    Repeats (SameIf (exact = exact')) (name s exact type) (name' s' exact' type'))
include named

theorem TupleElement.Pairs.repeats_nameWith {element element' : TupleElement}
    (h : element.Pairs R element') :
    Repeats (SameIf (exact = exact')) (element.nameWith name s exact)
      (element'.nameWith name' s' exact') := by
  unfold TupleElement.nameWith
  rw [h.optional]
  exact (named _ _ _ _ h.type).map fun _ => rfl

theorem Property.Pairs.repeats_nameWith {property property' : Property} (h : property.Pairs R property') :
    Repeats (SameIf (exact = exact')) (property.nameWith name s exact)
      (property'.nameWith name' s' exact') := by
  have typed := h.type
  unfold Property.nameWith
  rw [h.method, h.label_eq]
  cases here : property.type <;> cases there : property'.type <;> rw [here, there] at typed <;> cases typed
  · split <;> exact .ok fun _ => rfl
  · rename_i related
    split
    · exact .ok fun _ => rfl
    · exact (named _ _ _ _ related).map fun _ => rfl

theorem ObjectShape.Pairs.repeats_nameWith {shape shape' : ObjectShape} (h : shape.Pairs R shape') :
    Repeats (SameIf (exact = exact')) (shape.nameWith name s exact) (shape'.nameWith name' s' exact') := by
  unfold ObjectShape.nameWith
  refine (Repeats.mapM (h.visible.imp fun _ _ pair => pair.repeats_nameWith named)).bind
    fun members members' sameMembers => ?_
  have index : List.Forall₂ (fun type type' => Repeats (SameIf (exact = exact'))
      (do return "[key: string]: " ++ (← name s exact type))
      (do return "[key: string]: " ++ (← name' s' exact' type'))) shape.index.toList shape'.index.toList := by
    have indexed := h.index
    cases here : shape.index <;> cases there : shape'.index <;> rw [here, there] at indexed <;>
      cases indexed
    · exact .nil
    · rename_i related
      exact .cons ((named _ _ _ _ related).map fun _ => rfl) .nil
  refine (Repeats.mapM index).bind fun signature signature' sameSignature => .ok fun holds => ?_
  have members_eq : members = members' :=
    List.forall₂_eq_eq_eq ▸ sameMembers.imp fun _ _ same => same holds
  have signature_eq : signature = signature' :=
    List.forall₂_eq_eq_eq ▸ sameSignature.imp fun _ _ same => same holds
  rw [members_eq, signature_eq]

theorem repeats_membersNameWith {separator : String} {members members' : List TypeId}
    (h : List.Forall₂ R members members') :
    Repeats (SameIf (exact = exact')) (membersNameWith name s exact separator members)
      (membersNameWith name' s' exact' separator members') :=
  Repeats.map_mapM (h.imp fun _ _ related => named _ _ _ _ related)

end

/-- References to one definition have the same name if their arguments do. -/
theorem Arena.SameReference.repeats_referenceNameWith {R : Reading → Reading → Prop}
    {name name' : Substitution → Bool → TypeId → Except CompileError String} {exact exact' : Bool}
    (named : ∀ part part', R (s, part) (s', part') →
      Repeats (SameIf (exact = exact')) (name s exact part) (name' s' exact' part'))
    {target target' : DefinitionId} {arguments arguments' : List TypeId}
    (same : arena.SameReference R s s' target arguments target' arguments') :
    Repeats (SameIf (exact = exact')) (referenceNameWith arena name s exact target arguments)
      (referenceNameWith arena name' s' exact' target' arguments') := by
  obtain rfl := same.leads
  unfold referenceNameWith
  cases leads : arena.definition? target with
  | none => exact .ok fun _ => rfl
  | some definition =>
    dsimp only
    split
    · exact .ok fun _ => rfl
    · exact Repeats.map_mapM ((same.given definition leads).imp fun _ _ given =>
        (Repeats.of_follows given).bind named)

theorem typeNameWithin_of_parameter {type : TypeId} {id : ParameterId}
    (found : arena.lookup? type = some (.parameter id)) (depth : Nat) (s : Substitution) (exact : Bool) :
    typeNameWithin arena (depth + 1) s exact type =
      (s.resolve arena id >>= fun stands => typeNameWithin arena depth stands.2 exact stands.1) := by
  simp only [typeNameWithin, Arena.lookup_eq_ok.2 found, bind, Except.bind, Descriptor.nameWith]

/-- Types that are alike have the same name if both are checked for superfluous keys or none is. -/
theorem Arena.Alike.typeNameWithin (h : arena.Alike a b) (exact exact' : Bool) (m n : Nat) :
    Repeats (SameIf (exact = exact')) (ShapeCheck.typeNameWithin arena m a.1 exact a.2)
      (ShapeCheck.typeNameWithin arena n b.1 exact' b.2) := by
  refine Arena.Alike.induction (P := fun m a n b => ∀ exact exact', Repeats (SameIf (exact = exact'))
    (ShapeCheck.typeNameWithin arena m a.1 exact a.2)
    (ShapeCheck.typeNameWithin arena n b.1 exact' b.2)) ?_ ?_ ?_ ?_ ?_ m n h exact exact'
  · exact fun m a b _ _ => .failed _ _
  · exact fun a n b _ _ => .stopped (.inr ⟨_, rfl⟩) _
  · intro m a n s type id found ih exact exact'
    rw [typeNameWithin_of_parameter found]
    exact .bind_right fun stands resolved => ih _ _ resolved exact exact'
  · intro m s type id n b found deep ih exact exact'
    rw [typeNameWithin_of_parameter found]
    exact .bind_left (fun e failed => .inl (deep e failed)) fun stands resolved =>
      ih _ _ resolved exact exact'
  · intro m s type n s' type' forms ih exact exact'
    have named (part part' : TypeId) (exact exact' : Bool) (related : arena.Alike (s, part) (s', part')) :
        Repeats (SameIf (exact = exact')) (ShapeCheck.typeNameWithin arena m s exact part)
          (ShapeCheck.typeNameWithin arena n s' exact' part') := ih _ _ related exact exact'
    unfold ShapeCheck.typeNameWithin
    refine (repeats_lookup forms).bind fun descriptor descriptor' pair => ?_
    cases pair with
    | @plain descriptor isPlain =>
      cases descriptor <;> first | exact isPlain.elim | exact .ok fun _ => rfl
    | array related => exact (named _ _ _ _ related).map fun _ => rfl
    | tuple related =>
      exact Repeats.map_mapM (related.imp fun _ _ pair => pair.repeats_nameWith named)
    | object related =>
      exact (related.repeats_nameWith named).map fun same => by rw [same]
    | union related => exact repeats_membersNameWith named related
    | intersection related =>
      refine (repeats_membersNameWith named related).bind fun text _ same => .ok fun holds => ?_
      rw [same rfl, holds]
    | reference same =>
      exact (same.repeats_referenceNameWith fun part part' => named part part' _ _).map
        fun same => by rw [same]
    | parameter impossible => exact impossible.elim
    | indexAccess whole key =>
      refine (named _ _ false false whole).bind fun text _ same => ?_
      refine (named _ _ false false key).bind fun text' _ same' => .ok fun holds => ?_
      rw [same rfl, same' rfl, holds]
    | keyof related =>
      refine (named _ _ false false related).bind fun text _ same => .ok fun holds => ?_
      rw [same rfl, holds]

end

end ShapeCheck
