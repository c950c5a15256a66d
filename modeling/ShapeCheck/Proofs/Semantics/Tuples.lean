import ShapeCheck.Proofs.Narrowing.Likeness
import ShapeCheck.Proofs.Narrowing.Tables
import ShapeCheck.Proofs.Semantics.Correctness

set_option autoImplicit false

/-! # Accesses to tuples

A tuple is indexed by a position, or by `number` for any position. The two are selected by different
branches. What a position selects keeps the mark that it may be left out; what `number` selects does not.
So the values of `T[number]` are those of the types of the elements, and a value of `T[i]` is among them
unless it is `undefined` and stands for an element that is left out.

Main facts: `Subject.contains_position_iff`, `Subject.contains_anyPosition_iff` and
`Context.Compiles.verdict_anyPosition`.
-/

namespace ShapeCheck

/-! ## Selected positions -/

/-- The type is a tuple, or leads to one through parameters and references. The tuple is read inside of the
definitions on the way. -/
inductive Arena.LeadsToTuple (arena : Arena) : Reading → Substitution → List TupleElement → Prop
  | tuple {s : Substitution} {type : TypeId} {elements : List TupleElement}
      (found : arena.lookup? type = some (.tuple elements)) : LeadsToTuple arena (s, type) s elements
  | parameter {s visible t : Substitution} {type target : TypeId} {id : ParameterId}
      {elements : List TupleElement} (found : arena.lookup? type = some (.parameter id))
      (stands : s.resolve arena id = .ok (target, visible))
      (below : LeadsToTuple arena (visible, target) t elements) : LeadsToTuple arena (s, type) t elements
  | reference {s inside t : Substitution} {type body : TypeId} {target : DefinitionId}
      {arguments : List TypeId} {definition : Definition} {elements : List TupleElement}
      (found : arena.lookup? type = some (.reference target arguments))
      (leads : arena.definition? target = some definition)
      (entered : s.enter arena definition arguments = .ok inside) (given : definition.body = some body)
      (below : LeadsToTuple arena (inside, body) t elements) : LeadsToTuple arena (s, type) t elements

namespace Arena

variable {arena : Arena} {a : Reading} {t : Substitution} {elements : List TupleElement}

/-- A key that selects positions of a tuple selects the same ones where a type leads to the tuple: bases of
the definitions on the way are not looked at. -/
theorem LeadsToTuple.selectWithin (h : arena.LeadsToTuple a t elements) {key : IndexKey}
    (some : selectPositions elements t key ≠ []) {steps : Nat} {choices : List Choice}
    (selected : arena.selectWithin key steps a = .ok choices) : choices = selectPositions elements t key := by
  induction h generalizing steps choices with
  | tuple found =>
    cases steps with
    | zero => cases selected
    | succ steps =>
      rw [selectWithin_succ found] at selected
      exact (Except.ok.inj selected).symm
  | parameter found stands below ih =>
    cases steps with
    | zero => cases selected
    | succ steps =>
      rw [selectWithin_parameter found, stands, ok_bind] at selected
      exact ih some selected
  | reference found leads entered given below ih =>
    cases steps with
    | zero => cases selected
    | succ steps =>
      rw [selectWithin_succ found, Descriptor.selectWith, Arena.target_eq_ok.2 leads, ok_bind, entered, ok_bind,
        Definition.requireBody_eq_ok.2 given, ok_bind, firstChoices] at selected
      obtain ⟨first, here, rest⟩ := bind_eq_ok.1 selected
      have same := ih some here
      split at rest
      · rename_i empty
        exact absurd (same ▸ List.isEmpty_iff.1 empty) some
      · rw [← Except.ok.inj rest, same]

variable {options : CompileOptions} {depth : Nat} {s : Substitution} {whole index : TypeId}
  {lists : List (List Choice)}

/-- An access to a tuple by one key makes the choices of this key. -/
theorem LeadsToTuple.flatten_choices (h : arena.LeadsToTuple (s, whole) t elements) {key : IndexKey}
    (indexed : Context.indexKeys ⟨arena, options, s⟩ depth index = .ok [key])
    (some : selectPositions elements t key ≠ [])
    (chosen : arena.choices options depth s whole index = .ok lists) :
    lists.flatten = selectPositions elements t key := by
  rw [choices, indexed, ok_bind, mapM_eq_ok] at chosen
  cases chosen with
  | cons selected rest =>
    cases rest
    rw [List.flatten_singleton, h.selectWithin some selected]

theorem indexKeys_of_literal {x : Double} (literal : arena.lookup? index = some (.numberLiteral x)) :
    Context.indexKeys ⟨arena, options, s⟩ depth index = .ok [.number x] := by
  rw [Context.indexKeys, maxResolutionSteps, indexKeysWithin, Arena.lookup_eq_ok.2 literal]
  rfl

theorem indexKeys_of_number (anyNumber : arena.lookup? index = some (.keyword .number)) :
    Context.indexKeys ⟨arena, options, s⟩ depth index = .ok [.anyNumber] := by
  rw [Context.indexKeys, maxResolutionSteps, indexKeysWithin, Arena.lookup_eq_ok.2 anyNumber]
  rfl

/-! ## Values -/

section
variable (number : arena.lookup? (.ofKeyword .number) = some (.keyword .number)) {exact : Bool}
  {type : TypeId} (found : arena.lookup? type = some (.indexAccess whole index))
  (leads : arena.LeadsToTuple (s, whole) t elements)
  (chosen : arena.choices options depth s whole index = .ok lists)
include number found leads chosen

/-- The values at a position of a tuple are those of its element, and `undefined` if the element may be left
out. -/
theorem contains_position_iff {x : Double} {element : TupleElement}
    (literal : arena.lookup? index = some (.numberLiteral x)) (isPosition : x.isPosition = true)
    (inside : elements[x.toPosition]? = some element) (v : Value) :
    arena.Contains exact (s, type) v ↔
      (element.optional = true ∧ v = .undefined) ∨ arena.Contains exact (t, element.type) v := by
  have selects : selectPositions elements t (.number x) = [⟨(t, element.type), element.optional⟩] := by
    rw [selectPositions, if_pos isPosition, inside]
    rfl
  have choices := leads.flatten_choices (indexKeys_of_literal literal) (by rw [selects]; nofun) chosen
  rw [Subject.contains_access_iff number found chosen, choices, selects]
  simp only [List.mem_singleton, exists_eq_left, Subject.contains_ofChoice, Choice.Fits]

/-- The values at any position of a tuple are those of the types of its elements. -/
theorem contains_anyPosition_iff (anyNumber : arena.lookup? index = some (.keyword .number))
    (some : elements ≠ []) (v : Value) :
    arena.Contains exact (s, type) v ↔
      ∃ element ∈ elements, arena.Contains exact (t, element.type) v := by
  have selects : selectPositions elements t .anyNumber =
      elements.map fun element => ⟨(t, element.type), false⟩ := rfl
  have choices := leads.flatten_choices (indexKeys_of_number anyNumber)
    (by rwa [selects, Ne, List.map_eq_nil_iff]) chosen
  rw [Subject.contains_access_iff number found chosen, choices, selects]
  simp [Subject.contains_ofChoice, Choice.Fits]

end

end Arena

/-! ## Verdicts -/

section
variable {arena : Arena} {options : CompileOptions} {s : Substitution} {type : TypeId} {v : Validator}

/-- An access that is compiled makes its choices. -/
theorem Context.Compiles.exists_choices {whole index : TypeId}
    (number : arena.lookup? (.ofKeyword .number) = some (.keyword .number))
    (compiled : Context.Compiles ⟨arena, options, s⟩ type v)
    (apart : Subject.ToldApart arena (.ofRoot options (s, type))) (long : options.shortCircuit = false)
    (found : arena.lookup? type = some (.indexAccess whole index)) :
    ∃ options depth lists, arena.choices options depth s whole index = .ok lists := by
  obtain ⟨root, registry, outcome, -⟩ := compiled
  obtain ⟨own, bears⟩ := (Subject.compileRoot_decides number apart options s type .refl _ _ _ outcome
    Registry.holds_empty).2
  have access {own : Bool} {name : String}
      (bears : Subject.Bears arena own (.ofType options.superfluousPropertyCheck (s, type)) name) :
      ∃ options depth lists, arena.choices options depth s whole index = .ok lists :=
    let ⟨options, depth, lists, _, _, chosen, _⟩ := bears.access found
    ⟨options, depth, lists, chosen⟩
  rw [Subject.ofRoot, long, if_neg Bool.false_ne_true] at bears
  split at bears
  · cases bears with
    | optional below => exact access below
  · exact access bears

/-- A value that is accepted at a position of a tuple is accepted at any position, or the evaluation of the
latter halts at the limit: unless it is `undefined`, accepted for an element that is left out. -/
theorem Context.Compiles.verdict_anyPosition
    (number : arena.lookup? (.ofKeyword .number) = some (.keyword .number))
    {one any whole literal keyword : TypeId} {x : Double} {t : Substitution}
    {elements : List TupleElement} {element : TupleElement}
    (foundOne : arena.lookup? one = some (.indexAccess whole literal))
    (foundLiteral : arena.lookup? literal = some (.numberLiteral x))
    (foundAny : arena.lookup? any = some (.indexAccess whole keyword))
    (foundKeyword : arena.lookup? keyword = some (.keyword .number))
    (leads : arena.LeadsToTuple (s, whole) t elements) (isPosition : x.isPosition = true)
    (inside : elements[x.toPosition]? = some element)
    (apartOne : Subject.ToldApart arena (.ofRoot options (s, one)))
    (apartAny : Subject.ToldApart arena (.ofRoot options (s, any))) {w : Validator}
    (compiledOne : Context.Compiles ⟨arena, options, s⟩ one v)
    (compiledAny : Context.Compiles ⟨arena, options, s⟩ any w) {value : Value}
    (present : element.optional = true → value ≠ .undefined) (accepted : v.verdict value = .ok true) :
    w.verdict value = .ok true ∨ w.verdict value = .error .depthExceeded := by
  refine (compiledAny.verdict_cases value).imp_left fun ⟨b, decided⟩ => ?_
  rw [decided, (Context.verdict_iff_contains number compiledAny apartAny decided).2 ?_]
  have contained := (Context.verdict_iff_contains number compiledOne apartOne accepted).1 rfl
  cases short : options.shortCircuit with
  | true =>
    -- both are compiled as `any`
    rw [Subject.ofRoot, short, if_pos rfl] at contained ⊢
    exact contained
  | false =>
    obtain ⟨_, _, _, chosenOne⟩ := compiledOne.exists_choices number apartOne short foundOne
    obtain ⟨_, _, _, chosenAny⟩ := compiledAny.exists_choices number apartAny short foundAny
    have covered (exact : Bool) (h : arena.Contains exact (s, one) value) :
        arena.Contains exact (s, any) value := by
      have listed := List.mem_of_getElem? inside
      refine (Arena.contains_anyPosition_iff number foundAny leads chosenAny foundKeyword
        (List.ne_nil_of_mem listed) value).2 ⟨element, listed, ?_⟩
      refine ((Arena.contains_position_iff number foundOne leads chosenOne foundLiteral isPosition inside
        value).1 h).resolve_left fun ⟨optional, absent⟩ => present optional absent
    rw [Subject.ofRoot, short, if_neg Bool.false_ne_true] at contained ⊢
    split at contained
    · rename_i absent
      rw [if_pos absent]
      exact contained.imp_right (covered _)
    · rename_i required
      rw [if_neg required]
      exact covered _ contained

end

/-! ## A pair whose second element may be left out -/

/-- `Pair<T>` is `[T, string?]`. The last two types are `Pair<number>[1]` and `Pair<number>[number]`. -/
def openPair : Arena where
  descriptors := Arena.initial.descriptors ++
    #[.parameter ⟨0⟩, .tuple [⟨⟨14⟩, false⟩, ⟨.ofKeyword .string, true⟩], .reference ⟨0⟩ [.ofKeyword .number],
      .numberLiteral (.ofNat 1), .indexAccess ⟨16⟩ ⟨17⟩, .indexAccess ⟨16⟩ (.ofKeyword .number)]
  parameters := #[⟨"T", none⟩]
  definitions := #[⟨"Pair", [⟨0⟩], some ⟨15⟩, []⟩]

/-- Inside of `Pair<number>`. -/
def insidePair : Substitution := [[(⟨0⟩, ⟨.ofKeyword .number, .outer⟩)]]

/-- What is compiled for the two accesses, but for `Pair<number>[number]` itself. -/
def openPairNames : List (Subject × Option String) :=
  [(.ofType false ([], ⟨18⟩), none), (.optional false (insidePair, .ofKeyword .string), some "optional<string>"),
    (.ofType false (insidePair, .ofKeyword .string), some "string"), (.ofType false (insidePair, ⟨14⟩), none),
    (.ofType false ([], .ofKeyword .number), some "number")]

theorem tells_openPairNames : Subject.tells openPair 9 [] openPairNames = true := by decide +kernel

theorem toldApart_second : Subject.ToldApart openPair (.ofRoot {} ([], ⟨18⟩)) :=
  Subject.toldApart_of_tells tells_openPairNames rfl (by decide +kernel)

theorem toldApart_anyPosition : Subject.ToldApart openPair (.ofRoot {} ([], ⟨19⟩)) := by
  have chosen : openPair.choices {} 9 [] ⟨16⟩ (.ofKeyword .number) =
      .ok [[⟨(insidePair, ⟨14⟩), false⟩, ⟨(insidePair, .ofKeyword .string), false⟩]] := by rfl
  have spelled : typeNameWithin openPair 9 [] false ⟨19⟩ = .ok "Pair<number>[number]" := by rfl
  exact Subject.toldApart_of_choices tells_openPairNames rfl (by rfl) chosen (by decide +kernel) spelled
    (by decide +kernel)

theorem leadsToTuple_openPair : openPair.LeadsToTuple ([], ⟨16⟩) insidePair
    [⟨⟨14⟩, false⟩, ⟨.ofKeyword .string, true⟩] :=
  .reference rfl rfl (by rfl) rfl (.tuple rfl)

/-- A text is accepted at the second position of a `Pair<number>`, and so it is at any position. -/
theorem verdict_anyPosition_openPair : ∃ v w : Validator,
    Context.Compiles ⟨openPair, {}, []⟩ ⟨18⟩ v ∧ Context.Compiles ⟨openPair, {}, []⟩ ⟨19⟩ w ∧
      v.verdict (.string "a") = .ok true ∧
        (w.verdict (.string "a") = .ok true ∨ w.verdict (.string "a") = .error .depthExceeded) := by
  have second : (Context.validator? ⟨openPair, {}, []⟩ ⟨18⟩).bind
      (fun v => (v.verdict (.string "a")).toOption) = some true := by decide +kernel
  have anyPosition : (Context.validator? ⟨openPair, {}, []⟩ ⟨19⟩).bind
      (fun v => (v.verdict (.string "a")).toOption) = some true := by decide +kernel
  obtain ⟨v, compiled, accepted⟩ := Context.exists_compiles second
  obtain ⟨w, compiled', -⟩ := Context.exists_compiles anyPosition
  have inside : ([⟨⟨14⟩, false⟩, ⟨.ofKeyword .string, true⟩] : List TupleElement)[(Double.ofNat 1).toPosition]? =
      some ⟨.ofKeyword .string, true⟩ := by decide +kernel
  exact ⟨v, w, compiled, compiled', accepted, Context.Compiles.verdict_anyPosition rfl rfl rfl rfl rfl
    leadsToTuple_openPair (by decide +kernel) inside toldApart_second toldApart_anyPosition compiled compiled'
    (fun _ => nofun) accepted⟩

/-- `undefined` is accepted at the second position of a `Pair<number>`, which may be left out, but not at any
position, though names are told apart. -/
theorem exists_position_not_anyPosition : openPair.LeadsToTuple ([], ⟨16⟩) insidePair
    [⟨⟨14⟩, false⟩, ⟨.ofKeyword .string, true⟩] ∧
      Subject.ToldApart openPair (.ofRoot {} ([], ⟨18⟩)) ∧ Subject.ToldApart openPair (.ofRoot {} ([], ⟨19⟩)) ∧
        ∃ v w : Validator, Context.Compiles ⟨openPair, {}, []⟩ ⟨18⟩ v ∧
          Context.Compiles ⟨openPair, {}, []⟩ ⟨19⟩ w ∧ v.verdict .undefined = .ok true ∧
            w.verdict .undefined = .ok false := by
  have second : (Context.validator? ⟨openPair, {}, []⟩ ⟨18⟩).bind
      (fun v => (v.verdict .undefined).toOption) = some true := by decide +kernel
  have anyPosition : (Context.validator? ⟨openPair, {}, []⟩ ⟨19⟩).bind
      (fun v => (v.verdict .undefined).toOption) = some false := by decide +kernel
  obtain ⟨v, compiled, accepted⟩ := Context.exists_compiles second
  obtain ⟨w, compiled', rejected⟩ := Context.exists_compiles anyPosition
  exact ⟨leadsToTuple_openPair, toldApart_second, toldApart_anyPosition, v, w, compiled, compiled', accepted,
    rejected⟩

end ShapeCheck
