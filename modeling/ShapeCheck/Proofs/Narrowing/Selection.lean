import ShapeCheck.Proofs.Narrowing.Repeating
import ShapeCheck.Proofs.Repetitions
import ShapeCheck.Proofs.Simulation.Strategies

set_option autoImplicit false

/-! # Members in their places

An indexed access is compiled as the members that its keys select. `Arena.selectWithin` says which members
these are, without compiling them; a member keeps the substitution that it is read with. Which members a
key selects depends on nothing but the type, so types that are alike have members that are alike.

Main facts: `Arena.Alike.selectWithin`, `Arena.Alike.choices` and `IsLogic.membersWithin` (the names that
are found are those of the selected members).
-/

namespace ShapeCheck

/-! ## Selected members -/

/-- A member that a key selects: its type, and whether it may be left out. -/
structure Choice where
  reading : Reading
  optional : Bool
  deriving DecidableEq, Repr

/-- The member of an object that a key selects. A method is none. -/
def ObjectShape.select (shape : ObjectShape) (key : IndexKey) (s : Substitution) :
    Except CompileError (List Choice) :=
  match shape.declared? key with
  | some property =>
    if property.method then .ok []
    else
      match property.type with
      | none => .error (.unsupportedProperty property.name)
      | some type => .ok [⟨(s, type), property.optional⟩]
  | none => .ok (shape.index.toList.map fun type => ⟨(s, type), false⟩)

/-- The items of an array that a key selects. -/
def selectItems (element : TypeId) (s : Substitution) : IndexKey → List Choice
  | .number _ | .anyNumber => [⟨(s, element), false⟩]
  | .name "length" => [⟨(s, .ofKeyword .number), false⟩]
  | _ => []

/-- The positions of a tuple that a key selects. -/
def selectPositions (elements : List TupleElement) (s : Substitution) : IndexKey → List Choice
  | .number x =>
    (if x.isPosition then elements[x.toPosition]? else none).toList.map fun element =>
      ⟨(s, element.type), element.optional⟩
  | .anyNumber => elements.map fun element => ⟨(s, element.type), false⟩
  | .name "length" => [⟨(s, .ofKeyword .number), false⟩]
  | _ => []

section
variable {s : Substitution} {key : IndexKey} (number : ∀ x, key = .number x → False)
  (anyNumber : key = .anyNumber → False) (length : key = .name "length" → False)
include number anyNumber length

theorem selectItems_of_other {element : TypeId} : selectItems element s key = [] := by
  unfold selectItems
  split
  · exact (number _ rfl).elim
  · exact (anyNumber rfl).elim
  · exact (length rfl).elim
  · rfl

theorem selectPositions_of_other {elements : List TupleElement} : selectPositions elements s key = [] := by
  unfold selectPositions
  split
  · exact (number _ rfl).elim
  · exact (anyNumber rfl).elim
  · exact (length rfl).elim
  · rfl

end

/-- The first list that is not empty. -/
def firstChoices (pick : TypeId → Except CompileError (List Choice)) :
    List TypeId → Except CompileError (List Choice)
  | [] => .ok []
  | type :: rest => do
    let found ← pick type
    if found.isEmpty then firstChoices pick rest else return found

/-- The members of a descriptor that a key selects, where `pick` says it for types. Of the members of an
intersection, and of a body and its bases, the first that has the key decides. -/
def Descriptor.selectWith (arena : Arena) (key : IndexKey)
    (pick : Reading → Except CompileError (List Choice)) (a : Reading) :
    Descriptor → Except CompileError (List Choice)
  | .object shape => shape.select key a.1
  | .array element => .ok (selectItems element a.1 key)
  | .tuple elements => .ok (selectPositions elements a.1 key)
  | .reference target arguments => do
    let definition ← arena.target a.2 target
    let inside ← a.1.enter arena definition arguments
    let body ← definition.requireBody
    firstChoices (fun part => pick (inside, part)) (body :: definition.bases)
  | .parameter id => do
    let (target, visible) ← a.1.resolve arena id
    pick (visible, target)
  | .union members => do return (← members.mapM fun member => pick (a.1, member)).flatten
  | .intersection members => firstChoices (fun member => pick (a.1, member)) members
  | _ => .ok []

/-- The members of a type that a key selects, for a number of steps. -/
def Arena.selectWithin (arena : Arena) (key : IndexKey) :
    Nat → Reading → Except CompileError (List Choice)
  | 0, a => .error (.instantiationTooDeep ("#" ++ toString a.2.index) maxResolutionSteps)
  | steps + 1, a => do
    let descriptor ← arena.lookup a.2
    descriptor.selectWith arena key (arena.selectWithin key steps) a

/-- The members that an indexed access selects, key by key. -/
def Arena.choices (arena : Arena) (options : CompileOptions) (depth : Nat) (s : Substitution)
    (whole index : TypeId) : Except CompileError (List (List Choice)) := do
  let keys ← Context.indexKeys ⟨arena, options, s⟩ depth index
  keys.mapM fun key => arena.selectWithin key maxResolutionSteps (s, whole)

theorem selectWithin_succ {arena : Arena} {a : Reading} {descriptor : Descriptor}
    (found : arena.lookup? a.2 = some descriptor) (key : IndexKey) (steps : Nat) :
    arena.selectWithin key (steps + 1) a =
      descriptor.selectWith arena key (arena.selectWithin key steps) a := by
  rw [Arena.selectWithin, Arena.lookup_eq_ok.2 found]
  rfl

theorem selectWithin_parameter {arena : Arena} {a : Reading} {id : ParameterId}
    (found : arena.lookup? a.2 = some (.parameter id)) (key : IndexKey) (steps : Nat) :
    arena.selectWithin key (steps + 1) a =
      (a.1.resolve arena id >>= fun stands => arena.selectWithin key steps (stands.2, stands.1)) :=
  selectWithin_succ found key steps

/-! ## Types that are alike -/

/-- The members are alike. -/
structure Choice.Alike (arena : Arena) (choice choice' : Choice) : Prop where
  reading : arena.Alike choice.reading choice'.reading
  optional : choice.optional = choice'.optional

section
variable {arena : Arena} {s s' : Substitution} {a b : Reading} {key : IndexKey}

/-- A type without parts is alike to itself, whatever it is read with. -/
theorem Arena.Alike.of_isPlain {type : TypeId} {descriptor : Descriptor}
    (found : arena.lookup? type = some descriptor) (isPlain : descriptor.IsPlain) (s s' : Substitution) :
    arena.Alike (s, type) (s', type) := by
  refine ⟨fun a b => ∃ s s', a = (s, type) ∧ b = (s', type),
    ⟨fun ⟨s, s', here, there⟩ => ⟨s', s, there, here⟩, ?_⟩, s, s', rfl, rfl⟩
  rintro _ _ a' ⟨s, s', rfl, rfl⟩ stands
  have plain (id : ParameterId) : arena.lookup? type ≠ some (.parameter id) := by
    rw [found]
    rintro ⟨⟩
    exact isPlain
  cases stands with
  | next impossible => exact absurd impossible (plain _)
  | itself =>
    refine ⟨(s', type), .itself plain, ?_⟩
    rw [found]
    exact .some (.plain isPlain)

theorem repeats_firstChoices {pick pick' : TypeId → Except CompileError (List Choice)} {types types' : List TypeId}
    (h : List.Forall₂ (fun type type' =>
      Repeats (List.Forall₂ (Choice.Alike arena)) (pick type) (pick' type')) types types') :
    Repeats (List.Forall₂ (Choice.Alike arena)) (firstChoices pick types) (firstChoices pick' types') := by
  induction h with
  | nil => exact .ok .nil
  | cons here _ ih =>
    refine here.bind fun found found' related => ?_
    cases related with
    | nil => exact ih
    | cons first rest => exact .ok (.cons first rest)

theorem ObjectShape.Pairs.select {shape shape' : ObjectShape}
    (h : shape.Pairs (fun part part' => arena.Alike (s, part) (s', part')) shape') :
    Repeats (List.Forall₂ (Choice.Alike arena)) (shape.select key s) (shape'.select key s') := by
  have declared := h.declared? key
  unfold ObjectShape.select
  generalize shape.declared? key = found at declared ⊢
  generalize shape'.declared? key = found' at declared ⊢
  cases declared with
  | none =>
    have indexed := h.index
    cases here : shape.index <;> cases there : shape'.index <;> rw [here, there] at indexed <;> cases indexed
    · exact .ok .nil
    · rename_i related
      exact .ok (.cons ⟨related, rfl⟩ .nil)
  | @some property property' pair =>
    have typed := pair.type
    simp only [pair.method]
    split
    · exact .ok .nil
    · cases here : property.type <;> cases there : property'.type <;> rw [here, there] at typed <;>
        cases typed
      · exact .failed _ _
      · rename_i related
        exact .ok (.cons ⟨related, pair.optional⟩ .nil)

section
variable (number : arena.lookup? (.ofKeyword .number) = some (.keyword .number))
include number

theorem alike_selectItems {element element' : TypeId} (h : arena.Alike (s, element) (s', element')) :
    List.Forall₂ (Choice.Alike arena) (selectItems element s key) (selectItems element' s' key) := by
  have length := Arena.Alike.of_isPlain number trivial s s'
  unfold selectItems
  split
  · exact .cons ⟨h, rfl⟩ .nil
  · exact .cons ⟨h, rfl⟩ .nil
  · exact .cons ⟨length, rfl⟩ .nil
  · exact .nil

theorem alike_selectPositions {elements elements' : List TupleElement}
    (h : List.Forall₂ (TupleElement.Pairs fun part part' => arena.Alike (s, part) (s', part')) elements
      elements') :
    List.Forall₂ (Choice.Alike arena) (selectPositions elements s key)
      (selectPositions elements' s' key) := by
  have length := Arena.Alike.of_isPlain number trivial s s'
  unfold selectPositions
  split
  · rename_i x
    have position := rel_position h x
    generalize (if x.isPosition then elements[x.toPosition]? else none) = found at position ⊢
    generalize (if x.isPosition then elements'[x.toPosition]? else none) = found' at position ⊢
    cases position with
    | none => exact .nil
    | some pair => exact .cons ⟨pair.type, pair.optional⟩ .nil
  · rw [List.forall₂_map_left_iff, List.forall₂_map_right_iff]
    exact h.imp fun _ _ pair => ⟨pair.type, rfl⟩
  · exact .cons ⟨length, rfl⟩ .nil
  · exact .nil

/-- Types that are alike have members that are alike. -/
theorem Arena.Alike.selectWithin (h : arena.Alike a b) (key : IndexKey) (m n : Nat) :
    Repeats (List.Forall₂ (Choice.Alike arena)) (arena.selectWithin key m a)
      (arena.selectWithin key n b) := by
  refine Arena.Alike.induction (P := fun m a n b => Repeats (List.Forall₂ (Choice.Alike arena))
    (arena.selectWithin key m a) (arena.selectWithin key n b)) ?_ ?_ ?_ ?_ ?_ m n h
  · exact fun m a b => .failed _ _
  · exact fun a n b => .stopped (.inl ⟨_, _, rfl⟩) _
  · intro m a n s type id found ih
    rw [selectWithin_parameter (by exact found)]
    exact .bind_right fun stands resolved => ih _ _ resolved
  · intro m s type id n b found deep ih
    rw [selectWithin_parameter (by exact found)]
    exact .bind_left (fun e failed => .inl (deep e failed)) fun stands resolved => ih _ _ resolved
  · intro m s type n s' type' forms ih
    unfold Arena.selectWithin
    refine (repeats_lookup forms).bind fun descriptor descriptor' pair => ?_
    cases pair with
    | @plain descriptor isPlain => cases descriptor <;> first | exact isPlain.elim | exact .ok .nil
    | object related => exact related.select
    | array related => exact .ok (alike_selectItems number related)
    | tuple related => exact .ok (alike_selectPositions number related)
    | union related =>
      refine (Repeats.mapM (related.imp fun _ _ part => ih _ _ part)).bind fun lists lists' each => .ok ?_
      exact List.rel_flatten each
    | intersection related => exact repeats_firstChoices (related.imp fun _ _ part => ih _ _ part)
    | @reference target target' arguments arguments' same =>
      obtain rfl := same.leads
      refine (repeats_target _ _ target).bind fun definition _ leads => ?_
      obtain ⟨rfl, leads⟩ := leads
      refine (same.enter leads).bind fun t t' alike => ?_
      refine (repeats_requireBody definition).bind fun body _ given => ?_
      obtain ⟨rfl, given⟩ := given
      exact repeats_firstChoices ((alike.parts given).imp fun _ _ part => ih _ _ part)
    | parameter impossible => exact impossible.elim
    | indexAccess | keyof => exact .ok .nil

/-- Accesses to types that are alike, by index types that are alike, select members that are alike. -/
theorem Arena.Alike.choices {whole whole' index index' : TypeId}
    (same : arena.Alike (s, whole) (s', whole')) (same' : arena.Alike (s, index) (s', index'))
    (options options' : CompileOptions) (depth depth' : Nat) :
    Repeats (List.Forall₂ (List.Forall₂ (Choice.Alike arena)))
      (arena.choices options depth s whole index) (arena.choices options' depth' s' whole' index') := by
  refine (same'.indexKeys options options' depth depth').bind fun keys _ equal => ?_
  subst equal
  exact Repeats.mapM (List.forall₂_same.2 fun key _ => same.selectWithin number key _ _)

end

end

/-! ## What is found -/

/-- Statements about steps of a compilation and their results that follow the steps. -/
structure IsLogic (L : {α : Type} → Build α → (α → Prop) → Prop) : Prop where
  pure {α : Type} {a : α} {Q : α → Prop} (h : Q a) : L (Pure.pure a) Q
  throw {α : Type} (e : CompileError) {Q : α → Prop} : L (MonadExcept.throw e : Build α) Q
  bind {α β : Type} {m : Build α} {f : α → Build β} {Q : α → Prop} {Q' : β → Prop} (first : L m Q)
    (second : ∀ a, Q a → L (f a) Q') : L (m >>= f) Q'

theorem isLogic_keeps (I : Registry → Prop) : IsLogic fun {_} m Q => Keeps I m Q :=
  ⟨.pure, fun e => .throw e, .bind⟩

/-- The names are those of the choices, in the same order; some that stand twice may be left out. -/
def Covers (Q : Choice → String → Prop) (choices : List Choice) (names : List String) : Prop :=
  ∃ all, List.Forall₂ Q choices all ∧ names.eraseDups = all.eraseDups

namespace Covers

variable {Q : Choice → String → Prop} {choices choices' : List Choice} {names names' : List String}

theorem of_forall₂ (h : List.Forall₂ Q choices names) : Covers Q choices names := ⟨names, h, rfl⟩

/-- Each choice has a name among these. -/
theorem named (h : Covers Q choices names) : ∀ choice ∈ choices, ∃ name ∈ names, Q choice name := by
  obtain ⟨all, related, same⟩ := h
  intro choice inside
  obtain ⟨name, listed, good⟩ := exists_right_of_forall₂ related inside
  exact ⟨name, by rwa [← List.mem_eraseDups, same, List.mem_eraseDups], good⟩

/-- Each of these is the name of a choice. -/
theorem chosen (h : Covers Q choices names) : ∀ name ∈ names, ∃ choice ∈ choices, Q choice name := by
  obtain ⟨all, related, same⟩ := h
  intro name listed
  rw [← List.mem_eraseDups, same, List.mem_eraseDups] at listed
  exact exists_left_of_forall₂ related listed

theorem nil : Covers Q [] [] := .of_forall₂ .nil

theorem single {choice : Choice} {name : String} (h : Q choice name) : Covers Q [choice] [name] :=
  .of_forall₂ (.cons h .nil)

theorem append (h : Covers Q choices names) (h' : Covers Q choices' names') :
    Covers Q (choices ++ choices') (names ++ names') := by
  obtain ⟨all, related, same⟩ := h
  obtain ⟨all', related', same'⟩ := h'
  exact ⟨all ++ all', List.rel_append related related', eraseDups_append_congr same same'⟩

theorem flatten {lists : List (List Choice)} {found : List (List String)}
    (h : List.Forall₂ (Covers Q) lists found) : Covers Q lists.flatten found.flatten := by
  induction h with
  | nil => exact nil
  | cons here _ ih => exact here.append ih

theorem eraseDups (h : Covers Q choices names) : Covers Q choices names.eraseDups :=
  let ⟨all, related, same⟩ := h
  ⟨all, related, (eraseDups_eraseDups names).trans same⟩

theorem isEmpty_eq (h : Covers Q choices names) : names.isEmpty = choices.isEmpty := by
  cases choices with
  | nil =>
    cases names with
    | nil => rfl
    | cons name rest =>
      obtain ⟨choice, impossible, -⟩ := h.chosen name List.mem_cons_self
      cases impossible
  | cons choice rest =>
    obtain ⟨name, listed, -⟩ := h.named choice List.mem_cons_self
    cases names with
    | nil => cases listed
    | cons name rest => rfl

end Covers

theorem ok_bind {α β : Type} (a : α) (f : α → Except CompileError β) : (Except.ok a >>= f) = f a := rfl

/-- A choice is among the results, if there are any. -/
def Promised (made : Except CompileError (List Choice)) (choice : Choice) : Prop :=
  ∀ choices, made = .ok choices → choice ∈ choices

section
variable {L : {α : Type} → Build α → (α → Prop) → Prop} (logic : IsLogic L)
include logic

theorem IsLogic.lift_bind {α β : Type} {m : Except CompileError α} {f : α → Build β} {Q : β → Prop}
    (h : ∀ a, m = .ok a → L (f a) Q) : L ((liftM m : Build α) >>= f) Q := by
  cases m with
  | error e => exact logic.throw e
  | ok a => exact h a rfl

theorem IsLogic.mono {α : Type} {m : Build α} {Q Q' : α → Prop} (h : L m Q) (weaker : ∀ a, Q a → Q' a) :
    L m Q' := by
  rw [← bind_pure m]
  exact logic.bind h fun a good => logic.pure (weaker a good)

theorem IsLogic.mapM {α β : Type} {f : α → Build β} {R : α → β → Prop} {items : List α}
    (h : ∀ a ∈ items, L (f a) (R a)) : L (items.mapM f) (List.Forall₂ R items) := by
  induction items with
  | nil => exact logic.pure .nil
  | cons a rest ih =>
    rw [List.mapM_cons]
    refine logic.bind (h a List.mem_cons_self) fun b here => ?_
    refine logic.bind (ih fun c listed => h c (List.mem_cons_of_mem _ listed)) fun bs below => ?_
    exact logic.pure (.cons here below)

/-! ### Members -/

/-- The names that were found cover the choices that were made. -/
def Finds (Q : Choice → String → Prop) (made : Except CompileError (List Choice)) (names : List String) :
    Prop :=
  ∃ choices, made = .ok choices ∧ Covers Q choices names

omit logic in
theorem Finds.mapM {α : Type} {Q : Choice → String → Prop}
    {pick : α → Except CompileError (List Choice)} {items : List α} {found : List (List String)}
    (related : List.Forall₂ (fun item names => Finds Q (pick item) names) items found) :
    ∃ lists, items.mapM pick = .ok lists ∧ List.Forall₂ (Covers Q) lists found := by
  simp only [mapM_eq_ok]
  induction related with
  | nil => exact ⟨[], .nil, .nil⟩
  | cons here _ ih =>
    obtain ⟨list, picked, covers⟩ := here
    obtain ⟨lists, below, rest⟩ := ih
    exact ⟨list :: lists, .cons picked below, .cons covers rest⟩

variable {Q : Choice → String → Prop} {Allowed : Choice → Prop}
  {compile : Context → TypeId → Build String} {arena : Arena} {options : CompileOptions}
  (compiled : ∀ choice, Allowed choice →
    L (compilePart compile ⟨arena, options, choice.reading.1⟩ choice.reading.2 choice.optional) (Q choice))

theorem IsLogic.firstNonempty {find : TypeId → Build (List String)}
    {pick : TypeId → Except CompileError (List Choice)} {types : List TypeId}
    (each : ∀ type ∈ types, (∀ choice, Promised (pick type) choice → Allowed choice) →
      L (find type) (Finds Q (pick type)))
    (allowed : ∀ choice, Promised (firstChoices pick types) choice → Allowed choice) :
    L (ShapeCheck.firstNonempty find types) (Finds Q (firstChoices pick types)) := by
  induction types with
  | nil => exact logic.pure ⟨[], rfl, .nil⟩
  | cons type rest ih =>
    unfold ShapeCheck.firstNonempty
    refine logic.bind (each type List.mem_cons_self fun choice promised => allowed choice ?_)
      fun names found => ?_
    · intro choices made
      obtain ⟨first, picked, rest⟩ := bind_eq_ok.1 made
      have inside := promised first picked
      split at rest
      · rename_i empty
        rw [List.isEmpty_iff.1 empty] at inside
        cases inside
      · cases rest
        exact inside
    · obtain ⟨first, picked, covers⟩ := found
      have unfolded : firstChoices pick (type :: rest) =
          if first.isEmpty then firstChoices pick rest else .ok first := by
        simp only [firstChoices, picked]
        rfl
      rw [unfolded] at allowed ⊢
      rw [covers.isEmpty_eq]
      split
      · rename_i empty
        rw [if_pos empty] at allowed
        exact ih (fun other inside => each other (List.mem_cons_of_mem _ inside)) allowed
      · exact logic.pure ⟨first, rfl, covers⟩

include compiled

omit logic compiled in
theorem promised_ok {choice : Choice} {choices : List Choice} (inside : choice ∈ choices) :
    Promised (.ok choices) choice := by
  rintro _ ⟨⟩
  exact inside

theorem IsLogic.part {choice : Choice} (allowed : Allowed choice) :
    L (do return [← compilePart compile ⟨arena, options, choice.reading.1⟩ choice.reading.2 choice.optional])
      (Finds Q (.ok [choice])) :=
  logic.bind (compiled choice allowed) fun _ good => logic.pure ⟨_, rfl, .single good⟩

theorem IsLogic.single {type : TypeId} {s : Substitution} (allowed : Allowed ⟨(s, type), false⟩) :
    L (do return [← compile ⟨arena, options, s⟩ type]) (Finds Q (.ok [⟨(s, type), false⟩])) := by
  have part := logic.part compiled allowed
  simpa only [compilePart, Bool.false_eq_true, if_false, bind_pure] using part

theorem IsLogic.objectMembers {shape : ObjectShape} {key : IndexKey} {s : Substitution}
    (allowed : ∀ choice, Promised (shape.select key s) choice → Allowed choice) :
    L (ShapeCheck.objectMembers compile ⟨arena, options, s⟩ shape key) (Finds Q (shape.select key s)) := by
  rw [objectMembers_eq]
  unfold ObjectShape.select at allowed ⊢
  cases declared : shape.declared? key with
  | some property =>
    simp only [declared] at allowed ⊢
    split
    · exact logic.pure ⟨[], rfl, .nil⟩
    · rename_i field
      rw [if_neg field] at allowed
      cases typed : property.type with
      | none => exact logic.throw _
      | some type =>
        simp only [typed] at allowed
        exact logic.part compiled (allowed _ (promised_ok List.mem_cons_self))
  | none =>
    simp only [declared] at allowed ⊢
    cases index : shape.index with
    | none => exact logic.pure ⟨[], rfl, .nil⟩
    | some type =>
      simp only [index] at allowed
      exact logic.single compiled (allowed _ (promised_ok List.mem_cons_self))

theorem IsLogic.arrayMembers {element : TypeId} {key : IndexKey} {s : Substitution}
    (allowed : ∀ choice ∈ selectItems element s key, Allowed choice) :
    L (ShapeCheck.arrayMembers compile ⟨arena, options, s⟩ element key)
      (Finds Q (.ok (selectItems element s key))) := by
  unfold ShapeCheck.arrayMembers
  split
  · exact logic.single compiled (allowed _ List.mem_cons_self)
  · exact logic.single compiled (allowed _ List.mem_cons_self)
  · exact logic.single compiled (allowed _ List.mem_cons_self)
  · rename_i number anyNumber length
    rw [selectItems_of_other number anyNumber length]
    exact logic.pure ⟨[], rfl, .nil⟩

theorem IsLogic.tupleMembers {elements : List TupleElement} {key : IndexKey} {s : Substitution}
    (allowed : ∀ choice ∈ selectPositions elements s key, Allowed choice) :
    L (ShapeCheck.tupleMembers compile ⟨arena, options, s⟩ elements key)
      (Finds Q (.ok (selectPositions elements s key))) := by
  unfold ShapeCheck.tupleMembers
  split
  · rename_i x
    dsimp only [selectPositions] at allowed ⊢
    generalize (if x.isPosition then elements[x.toPosition]? else none) = found at allowed ⊢
    cases found with
    | none => exact logic.pure ⟨[], rfl, .nil⟩
    | some element => exact logic.part compiled (allowed _ List.mem_cons_self)
  · have each : ∀ element ∈ elements, L (compile ⟨arena, options, s⟩ element.type)
        (Q ⟨(s, element.type), false⟩) := fun element inside => by
      have part := compiled ⟨(s, element.type), false⟩ (allowed _ (List.mem_map_of_mem inside))
      simpa only [compilePart, Bool.false_eq_true, if_false, bind_pure] using part
    refine logic.bind (logic.mapM each) fun names related => logic.pure ⟨_, rfl, Covers.eraseDups ?_⟩
    exact .of_forall₂ (List.forall₂_map_left_iff.2 related)
  · exact logic.single compiled (allowed _ List.mem_cons_self)
  · rename_i number anyNumber length
    rw [selectPositions_of_other number anyNumber length]
    exact logic.pure ⟨[], rfl, .nil⟩

/-- The names that are found for a key are those of the members that it selects. -/
theorem IsLogic.membersWithin {key : IndexKey} (steps : Nat) (s : Substitution) (type : TypeId)
    (allowed : ∀ choice, Promised (arena.selectWithin key steps (s, type)) choice → Allowed choice) :
    L (ShapeCheck.membersWithin compile key steps ⟨arena, options, s⟩ type)
      (Finds Q (arena.selectWithin key steps (s, type))) := by
  induction steps generalizing s type with
  | zero => exact logic.throw _
  | succ steps ih =>
    unfold ShapeCheck.membersWithin
    refine logic.lift_bind fun descriptor found => ?_
    rw [selectWithin_succ (a := (s, type)) (Arena.lookup_eq_ok.1 found)] at allowed ⊢
    cases descriptor with
    | object shape => exact logic.objectMembers compiled allowed
    | array element =>
      exact logic.arrayMembers compiled fun choice inside => allowed choice (promised_ok inside)
    | tuple elements =>
      exact logic.tupleMembers compiled fun choice inside => allowed choice (promised_ok inside)
    | reference target arguments =>
      refine logic.lift_bind fun definition leads => logic.lift_bind fun inside entered => ?_
      refine logic.lift_bind fun body given => ?_
      obtain ⟨t, opened, made⟩ := bind_eq_ok.1 entered
      cases made
      have picked : (Descriptor.reference target arguments).selectWith arena key
          (arena.selectWithin key steps) (s, type) =
            firstChoices (fun part => arena.selectWithin key steps (t, part)) (body :: definition.bases) := by
        have leads : arena.target type target = .ok definition := leads
        have opened : s.enter arena definition arguments = .ok t := opened
        rw [Descriptor.selectWith, leads, ok_bind, opened, ok_bind, given, ok_bind]
      rw [picked] at allowed ⊢
      exact logic.firstNonempty (fun part _ promised => ih t part promised) allowed
    | parameter id =>
      refine logic.lift_bind fun (target, visible) stands => ?_
      obtain ⟨outer, resolved, rfl⟩ := Context.resolve_eq_ok stands
      have picked : (Descriptor.parameter id).selectWith arena key (arena.selectWithin key steps)
          (s, type) = arena.selectWithin key steps (outer, target) := by
        rw [Descriptor.selectWith, resolved, ok_bind]
      rw [picked] at allowed ⊢
      exact ih outer target allowed
    | union members =>
      have each : ∀ member ∈ members,
          L (ShapeCheck.membersWithin compile key steps ⟨arena, options, s⟩ member)
            (Finds Q (arena.selectWithin key steps (s, member))) := by
        refine fun member inside => ih s member fun choice promised => allowed choice ?_
        intro choices made
        obtain ⟨lists, picked, made⟩ := bind_eq_ok.1 made
        cases made
        obtain ⟨list, listed, here⟩ := exists_right_of_forall₂ (mapM_eq_ok.1 picked) inside
        exact List.mem_flatten_of_mem listed (promised list here)
      refine logic.bind (logic.mapM each) fun found related => logic.pure ?_
      obtain ⟨lists, picked, covers⟩ := Finds.mapM related
      refine ⟨lists.flatten, ?_, (Covers.flatten covers).eraseDups⟩
      rw [Descriptor.selectWith, picked]
      rfl
    | intersection members =>
      exact logic.firstNonempty (fun member _ promised => ih s member promised) allowed
    | _ => exact logic.pure ⟨[], rfl, .nil⟩

/-- The names that are found for the keys of an access are those of its choices, and no key goes without
one. -/
theorem IsLogic.selectedMembers {depth : Nat} {s : Substitution} {type whole index : TypeId}
    {keys : List IndexKey} (indexed : Context.indexKeys ⟨arena, options, s⟩ depth index = .ok keys)
    (allowed : ∀ choice, (∀ lists, arena.choices options depth s whole index = .ok lists →
      choice ∈ lists.flatten) → Allowed choice) :
    L (keys.mapM (ShapeCheck.selectedMembers depth compile ⟨arena, options, s⟩ type whole)) fun found =>
      ∃ lists, arena.choices options depth s whole index = .ok lists ∧
        List.Forall₂ (Covers Q) lists found ∧ ∀ list ∈ lists, list ≠ [] := by
  have choices : arena.choices options depth s whole index =
      keys.mapM fun key => arena.selectWithin key maxResolutionSteps (s, whole) := by
    rw [Arena.choices, indexed, ok_bind]
  rw [choices] at allowed ⊢
  have each : ∀ key ∈ keys,
      L (ShapeCheck.selectedMembers depth compile ⟨arena, options, s⟩ type whole key) fun names =>
        names ≠ [] ∧ Finds Q (arena.selectWithin key maxResolutionSteps (s, whole)) names := by
    intro key inside
    unfold ShapeCheck.selectedMembers
    refine logic.bind (logic.membersWithin compiled maxResolutionSteps s whole fun choice promised =>
      allowed choice ?_) fun names found => ?_
    · intro lists made
      obtain ⟨list, listed, here⟩ := exists_right_of_forall₂ (mapM_eq_ok.1 made) inside
      exact List.mem_flatten_of_mem listed (promised list here)
    · split
      · exact logic.lift_bind fun _ _ => logic.throw _
      · rename_i some
        exact logic.pure ⟨fun none => some (List.isEmpty_iff.2 none), found⟩
  refine logic.mono (logic.mapM each) fun found related => ?_
  obtain ⟨lists, made, covers⟩ := Finds.mapM (related.imp fun _ _ both => both.2)
  refine ⟨lists, made, covers, fun list inside none => ?_⟩
  obtain ⟨names, listed, cover⟩ := exists_right_of_forall₂ covers inside
  obtain ⟨key, -, some, -⟩ := exists_left_of_forall₂ related listed
  have same := cover.isEmpty_eq
  rw [none] at same
  exact some (List.isEmpty_iff.1 same)

end

end ShapeCheck
