import ShapeCheck.Compile.Basic
import ShapeCheck.Proofs.Compilation.Errors
import ShapeCheck.Proofs.Narrowing.Works

set_option autoImplicit false

/-! # Compiling without the check

Without the check for superfluous keys, a type that satisfies the conditions of `Arena.Works` is compiled
unless a limit is reached. The conditions name some reading of the type that has a name, keys or members;
the type itself, which may lie deeper, has the same or reaches a limit.

Main facts: `Arena.Alike.onlyLimits_membersWithin` and `Arena.Works.onlyLimits_compileWithin`.
-/

namespace ShapeCheck

variable {arena : Arena} {compile : Context → TypeId → Build String} {options : CompileOptions}

/-! ## Members -/

section
variable {E : CompileError → Prop} {s : Substitution}

theorem onlyFails_single {type : TypeId}
    (compiled : OnlyFails E (compilePart compile ⟨arena, options, s⟩ type false)) :
    OnlyFails E (do return [← compile ⟨arena, options, s⟩ type]) := by
  simp only [compilePart, Bool.false_eq_true, if_false, bind_pure] at compiled
  exact compiled.bind fun _ => .pure _

theorem onlyFails_objectMembers_of_select {shape : ObjectShape} {key : IndexKey} (fails : OnlyErrors E (shape.select key s))
    (compiled : ∀ choices, shape.select key s = .ok choices → ∀ choice ∈ choices,
      OnlyFails E (compilePart compile ⟨arena, options, choice.reading.1⟩ choice.reading.2 choice.optional)) :
    OnlyFails E (objectMembers compile ⟨arena, options, s⟩ shape key) := by
  rw [objectMembers_eq]
  unfold ObjectShape.select at fails compiled
  cases declared : shape.declared? key with
  | some property =>
    simp only [declared] at fails compiled ⊢
    split
    · exact .pure []
    · rename_i field
      rw [if_neg field] at fails compiled
      cases typed : property.type with
      | none =>
        rw [typed] at fails
        exact .throw (fails _ rfl)
      | some type =>
        rw [typed] at compiled
        exact (compiled _ rfl _ List.mem_cons_self).bind fun _ => .pure _
  | none =>
    simp only [declared] at compiled ⊢
    cases index : shape.index with
    | none => exact .pure []
    | some type =>
      rw [index] at compiled
      exact onlyFails_single (compiled _ rfl _ List.mem_cons_self)

theorem onlyFails_arrayMembers_of_select {element : TypeId} {key : IndexKey}
    (compiled : ∀ choice ∈ selectItems element s key,
      OnlyFails E (compilePart compile ⟨arena, options, choice.reading.1⟩ choice.reading.2 choice.optional)) :
    OnlyFails E (arrayMembers compile ⟨arena, options, s⟩ element key) := by
  unfold arrayMembers
  split
  · exact onlyFails_single (compiled _ List.mem_cons_self)
  · exact onlyFails_single (compiled _ List.mem_cons_self)
  · exact onlyFails_single (compiled _ List.mem_cons_self)
  · exact .pure []

theorem onlyFails_tupleMembers_of_select {elements : List TupleElement} {key : IndexKey}
    (compiled : ∀ choice ∈ selectPositions elements s key,
      OnlyFails E (compilePart compile ⟨arena, options, choice.reading.1⟩ choice.reading.2 choice.optional)) :
    OnlyFails E (tupleMembers compile ⟨arena, options, s⟩ elements key) := by
  unfold tupleMembers
  split
  · rename_i x
    dsimp only [selectPositions] at compiled
    generalize (if x.isPosition then elements[x.toPosition]? else none) = found at compiled ⊢
    cases found with
    | none => exact .pure []
    | some element => exact (compiled _ List.mem_cons_self).bind fun _ => .pure _
  · refine (OnlyFails.mapM fun element inside => ?_).bind fun names => .pure _
    have part := compiled ⟨(s, element.type), false⟩ (List.mem_map_of_mem inside)
    simpa only [compilePart, Bool.false_eq_true, if_false, bind_pure] using part
  · exact onlyFails_single (compiled _ List.mem_cons_self)
  · exact .pure []

end

/-- Where the first list that is not empty is looked for in two ways, and both find empty lists at the same
types. -/
theorem onlyLimits_firstNonempty {find : TypeId → Build (List String)}
    {pick : TypeId → Except CompileError (List Choice)} {Good : Choice → Prop} {types types' : List TypeId}
    (each : List.Forall₂ (fun type type' => ∀ found, pick type' = .ok found → (∀ choice ∈ found, Good choice) →
      OnlyFails CompileError.IsLimit (find type) ∧
        Keeps (fun _ => True) (find type) fun names => names.isEmpty = found.isEmpty) types types')
    {found : List Choice} (picked : firstChoices pick types' = .ok found) (good : ∀ choice ∈ found, Good choice) :
    OnlyFails CompileError.IsLimit (firstNonempty find types) := by
  induction each with
  | nil => exact .pure []
  | cons here _ ih =>
    obtain ⟨first, made, rest⟩ := bind_eq_ok.1 picked
    have allGood : ∀ choice ∈ first, Good choice := by
      split at rest
      · rename_i empty
        rw [List.isEmpty_iff.1 empty]
        nofun
      · cases rest
        exact good
    obtain ⟨fails, empty⟩ := here first made allGood
    refine fails.bind_of_gives fun r names r' outcome => ?_
    rw [(empty r names r' outcome trivial).2]
    split at rest
    · rw [if_pos ‹_›]
      exact ih rest
    · rw [if_neg ‹_›]
      exact .pure names

/-- Members that are like this one are compiled as far as limits allow. -/
def Choice.OnlyLimits (arena : Arena) (compile : Context → TypeId → Build String) (options : CompileOptions)
    (choice : Choice) : Prop :=
  ∀ other : Choice, other.Alike arena choice → OnlyFails CompileError.IsLimit
    (compilePart compile ⟨arena, options, other.reading.1⟩ other.reading.2 other.optional)

section
variable (number : arena.lookup? (.ofKeyword .number) = some (.keyword .number))
include number

namespace Arena.Alike

variable {a b : Reading} {key : IndexKey} {found : List Choice}

/-- For types that are alike, members are found or not. -/
theorem keeps_isEmpty (h : arena.Alike a b) (m : Nat) {n : Nat} (picked : arena.selectWithin key n b = .ok found) :
    Keeps (fun _ => True) (membersWithin compile key m ⟨arena, options, a.1⟩ a.2)
      fun names => names.isEmpty = found.isEmpty := by
  have named : Keeps (fun _ => True) (membersWithin compile key m ⟨arena, options, a.1⟩ a.2)
      (Finds (fun _ _ => True) (arena.selectWithin key m a)) :=
    (isLogic_keeps _).membersWithin (fun choice (_ : True) => Build.keeps_nothing _) m a.1 a.2 fun _ _ => trivial
  refine named.mono fun names ⟨choices, made, covers⟩ => ?_
  have related := (h.selectWithin number key m n).related made picked
  rw [covers.isEmpty_eq]
  cases related <;> rfl

/-- Members that are like those selected elsewhere are compiled as far as limits allow. -/
theorem onlyLimits_membersWithin (h : arena.Alike a b) (m n : Nat) (picked : arena.selectWithin key n b = .ok found)
    (compiled : ∀ choice ∈ found, choice.OnlyLimits arena compile options) :
    OnlyFails CompileError.IsLimit (membersWithin compile key m ⟨arena, options, a.1⟩ a.2) := by
  refine Arena.Alike.induction (P := fun m a n b => ∀ found, arena.selectWithin key n b = .ok found →
    (∀ choice ∈ found, choice.OnlyLimits arena compile options) →
      OnlyFails CompileError.IsLimit (membersWithin compile key m ⟨arena, options, a.1⟩ a.2))
    ?_ ?_ ?_ ?_ ?_ m n h found picked compiled
  · exact fun m a b found picked => absurd picked nofun
  · exact fun a n b found picked compiled => .throw (.inl ⟨_, _, rfl⟩)
  · intro m a n s type id unresolved ih found picked compiled
    rw [selectWithin_parameter (by exact unresolved)] at picked
    obtain ⟨⟨target, visible⟩, resolved, picked⟩ := bind_eq_ok.1 picked
    exact ih target visible resolved found picked compiled
  · intro m s type id n b unresolved deep ih found picked compiled
    unfold membersWithin
    simp only [Arena.lookup_eq_ok.2 unresolved, Build.liftM_ok, pure_bind]
    refine OnlyFails.lift_bind (Context.onlyLimits_resolve deep) fun (target, visible) stands => ?_
    obtain ⟨outer, resolved, rfl⟩ := Context.resolve_eq_ok stands
    exact ih target outer resolved found picked compiled
  · intro m s type n s' type' forms ih found picked compiled
    obtain ⟨descriptor', found', picked⟩ := bind_eq_ok.1 picked
    rw [Arena.lookup_eq_ok.1 found'] at forms
    cases here : arena.lookup? type <;> rw [here] at forms <;> cases forms
    rename_i descriptor pair
    unfold membersWithin
    simp only [Arena.lookup_eq_ok.2 here, Build.liftM_ok, pure_bind]
    have each {types types' : List TypeId} {s s' : Substitution}
        (related : List.Forall₂ (fun part part' => arena.Alike (s, part) (s', part')) types types') :
        List.Forall₂ (fun type type' => ∀ found, arena.selectWithin key n (s', type') = .ok found →
          (∀ choice ∈ found, choice.OnlyLimits arena compile options) →
            OnlyFails CompileError.IsLimit (membersWithin compile key m ⟨arena, options, s⟩ type) ∧
              Keeps (fun _ => True) (membersWithin compile key m ⟨arena, options, s⟩ type)
                fun names => names.isEmpty = found.isEmpty) types types' :=
      related.imp fun part part' alike found picked compiled =>
        ⟨ih _ _ alike found picked compiled, alike.keeps_isEmpty number m picked⟩
    cases pair with
    | plain isPlain => cases descriptor' <;> first | exact isPlain.elim | exact .pure []
    | @object shape shape' related =>
      have same : Repeats (List.Forall₂ (Choice.Alike arena)) (shape.select key s) (shape'.select key s') :=
        related.select
      refine onlyFails_objectMembers_of_select (same.onlyLimits picked) fun choices made choice inside => ?_
      obtain ⟨choice', inside', alike⟩ := exists_right_of_forall₂ (same.related made picked) inside
      exact compiled choice' inside' choice alike
    | array related =>
      obtain rfl := Except.ok.inj picked
      refine onlyFails_arrayMembers_of_select fun choice inside => ?_
      obtain ⟨choice', inside', alike⟩ := exists_right_of_forall₂ (alike_selectItems number related) inside
      exact compiled choice' inside' choice alike
    | tuple related =>
      obtain rfl := Except.ok.inj picked
      refine onlyFails_tupleMembers_of_select fun choice inside => ?_
      obtain ⟨choice', inside', alike⟩ := exists_right_of_forall₂ (alike_selectPositions number related) inside
      exact compiled choice' inside' choice alike
    | union related =>
      obtain ⟨lists, made, same⟩ := bind_eq_ok.1 picked
      obtain rfl := Except.ok.inj same
      refine (OnlyFails.mapM fun member inside => ?_).bind fun names => .pure _
      obtain ⟨member', inside', alike⟩ := exists_right_of_forall₂ related inside
      obtain ⟨list, listed, picked⟩ := exists_right_of_forall₂ (mapM_eq_ok.1 made) inside'
      exact ih _ _ alike list picked fun choice' inside => compiled choice' (List.mem_flatten_of_mem listed inside)
    | intersection related => exact onlyLimits_firstNonempty (each related) picked compiled
    | @reference target target' arguments arguments' same =>
      obtain rfl := same.leads
      obtain ⟨definition, leads, picked⟩ := bind_eq_ok.1 picked
      obtain ⟨inside', entered', picked⟩ := bind_eq_ok.1 picked
      obtain ⟨body, given, picked⟩ := bind_eq_ok.1 picked
      have leads := Arena.target_eq_ok.1 leads
      have entering := same.enter leads
      simp only [Arena.target_eq_ok.2 leads, Build.liftM_ok, pure_bind]
      refine OnlyFails.lift_bind ?_ fun inside entered => ?_
      · exact (entering.onlyLimits entered').bind fun _ _ => .ok _
      obtain ⟨t, opened, made⟩ := bind_eq_ok.1 entered
      cases made
      simp only [given, Build.liftM_ok, pure_bind]
      have alike := entering.related opened entered'
      exact onlyLimits_firstNonempty (each (alike.parts (Definition.requireBody_eq_ok.1 given))) picked compiled
    | parameter impossible => exact impossible.elim
    | indexAccess | keyof => exact .pure []

end Arena.Alike

/-! ## Accesses -/

variable {depth : Nat} {s : Substitution} {type whole index : TypeId}

theorem onlyLimits_selectedMembers {b : Reading} {key : IndexKey} {n : Nat} {found : List Choice}
    (alike : arena.Alike (s, whole) b) (picked : arena.selectWithin key n b = .ok found) (some : found ≠ [])
    (compiled : ∀ choice ∈ found, choice.OnlyLimits arena compile options) :
    OnlyFails CompileError.IsLimit (selectedMembers depth compile ⟨arena, options, s⟩ type whole key) := by
  unfold selectedMembers
  refine (alike.onlyLimits_membersWithin number _ _ picked compiled).bind_of_gives fun r names t outcome => ?_
  have empty := (alike.keeps_isEmpty number _ picked r names t outcome trivial).2
  split
  · rename_i none
    exact absurd (List.isEmpty_iff.1 (empty.symm.trans none)) some
  · exact .pure names

omit number in
/-- Choices that are like others which all have one name have one name as well. -/
theorem Choice.AllNamedAlike.names_eq {choices choices' : List Choice} {names : List String}
    (alike : Choice.AllNamedAlike arena choices') (related : List.Forall₂ (Choice.Alike arena) choices choices')
    (covers : Covers (fun choice name => ∃ own, Subject.Bears arena own (.ofChoice false choice) name) choices
      names) {one two : String} (inside : one ∈ names) (inside' : two ∈ names) : one = two := by
  have twin {name : String} (inside : name ∈ names) : ∃ choice ∈ choices', ∃ own twin,
      (Subject.ofChoice false choice).loosely.Twins arena twin ∧ Subject.Bears arena own twin name := by
    obtain ⟨choice, listed, own, bears⟩ := covers.chosen name inside
    obtain ⟨choice', listed', same⟩ := exists_right_of_forall₂ related listed
    refine ⟨choice', listed', own, _, ?_, bears⟩
    rw [Subject.loosely_ofChoice]
    exact (Subject.Twins.ofChoice same false).symm
  obtain ⟨choice, listed, own, subject, twins, bears⟩ := twin inside
  obtain ⟨choice', listed', own', subject', twins', bears'⟩ := twin inside'
  exact alike choice listed choice' listed' own subject one own' subject' two twins bears twins' bears'

/-- An access whose members are compiled as far as limits allow is compiled as far. -/
theorem onlyLimits_compileIndexAccess {lists : List (List Choice)}
    (loose : options.superfluousPropertyCheck = false)
    (named : ∀ s type, Keeps (fun _ => True) (compile ⟨arena, options, s⟩ type) fun name =>
      ∃ own, Subject.Bears arena own (.ofType options.superfluousPropertyCheck (s, type)) name)
    (fills : arena.Fills (s, whole) (s, index) lists)
    (compiled : ∀ choice ∈ lists.flatten, choice.OnlyLimits arena compile options)
    (spelled : OnlyErrors CompileError.IsLimit (Context.nameOf ⟨arena, options, s⟩ depth type) ∨
      Choice.AllNamedAlike arena lists.flatten) :
    OnlyFails CompileError.IsLimit (compileIndexAccess depth compile ⟨arena, options, s⟩ type whole index) := by
  obtain ⟨s', whole', index', options', depth', wholes, indexes, chosen', filled⟩ := fills
  have repeats := Arena.Alike.choices number wholes indexes options options' depth depth'
  unfold compileIndexAccess
  refine OnlyFails.lift_bind (repeats.onlyLimits chosen').of_bind fun keys indexed => ?_
  obtain ⟨keys', indexed', made'⟩ := bind_eq_ok.1 chosen'
  obtain rfl := (indexes.indexKeys options options' depth depth').related indexed indexed'
  have selected : OnlyFails CompileError.IsLimit
      (keys.mapM (selectedMembers depth compile ⟨arena, options, s⟩ type whole)) := by
    refine OnlyFails.mapM fun key inside => ?_
    obtain ⟨list, listed, picked⟩ := exists_right_of_forall₂ (mapM_eq_ok.1 made') inside
    exact onlyLimits_selectedMembers number wholes picked (filled.2 list listed) fun choice inside =>
      compiled choice (List.mem_flatten_of_mem listed inside)
  refine selected.bind_of_gives fun r names t outcome => ?_
  obtain ⟨-, lists', chosen, covers, full⟩ := (isLogic_keeps fun _ => True).selectedMembers
    (fun choice (_ : True) => Subject.bears_compilePart named choice) indexed (fun _ _ => trivial)
    r names t outcome trivial
  have related := repeats.related chosen chosen'
  have cover := Covers.flatten covers
  split
  · rename_i none
    have filled' : AreFilled lists' := by
      refine ⟨?_, full⟩
      rintro rfl
      exact filled.1 (List.forall₂_nil_left_iff.1 related)
    have empty := cover.eraseDups.isEmpty_eq
    rw [none] at empty
    exact absurd (List.isEmpty_iff.1 empty.symm) filled'.flatten_ne_nil
  · exact .pure _
  · rename_i none single
    have limits : OnlyErrors CompileError.IsLimit (Context.nameOf ⟨arena, options, s⟩ depth type) := by
      refine spelled.resolve_right fun alike => ?_
      obtain ⟨one, inside, two, inside', different⟩ := exists_ne_of_eraseDups none single
      rw [loose] at cover
      exact different (alike.names_eq (List.rel_flatten related) cover inside inside')
    exact OnlyFails.lift_bind limits fun name _ => Build.onlyFails_ensureExpr (.pure _)

/-! ## All types -/

omit number in
theorem Arena.Spells.onlyLimits_nameOf {a : Reading} (spells : arena.Spells a) (options : CompileOptions)
    (depth : Nat) : OnlyErrors CompileError.IsLimit (Context.nameOf ⟨arena, options, a.1⟩ depth a.2) :=
  let ⟨_, exact, _, _, alike, spelled⟩ := spells
  (alike.typeNameWithin _ exact depth _).onlyLimits spelled

omit number in
theorem Arena.Spells.onlyLimits_ensure {a : Reading} (spells : arena.Spells a) {reason : Option Reason}
    {body : Build (List Stmt)} (h : OnlyFails CompileError.IsLimit body) :
    OnlyFails CompileError.IsLimit
      (do Build.ensure (← Context.nameOf ⟨arena, options, a.1⟩ depth a.2) reason body) :=
  OnlyFails.lift_bind (spells.onlyLimits_nameOf options depth) fun _ _ => Build.onlyFails_ensure h

section
variable (loose : options.superfluousPropertyCheck = false)
  (compiled : ∀ s type, arena.Works options.ignoreMethods (s, type) →
    OnlyFails CompileError.IsLimit (compile ⟨arena, options, s⟩ type))
include compiled

omit number

theorem ObjectShape.Works.onlyLimits_objectBody {shape : ObjectShape}
    (works : shape.Works options.ignoreMethods (arena.Works options.ignoreMethods) s) :
    OnlyFails CompileError.IsLimit (objectBody compile ⟨arena, options, s⟩ shape) := by
  obtain ⟨typed, parts⟩ := works
  refine onlyFails_objectBody (fun property listed texts => ⟨fun method kept => ?_, fun field untyped => ?_,
    fun field part type => ?_⟩) fun part indexed => compiled s part (parts part (.inr indexed))
  · have ignored := typed property listed texts
    rw [if_pos method] at ignored
    exact absurd (ignored.symm.trans kept) nofun
  · have some := typed property listed texts
    rw [if_neg (by simp [field]), untyped] at some
    cases some
  · exact compiled s part (parts part (.inl ⟨property, listed, texts, field, type⟩))

/-- The contents of a definition, entered through a reference. -/
theorem onlyLimits_referenceBody {definition : Definition} {arguments : List TypeId} {bindings : Instantiation}
    (bound : Instantiation.ofArguments arena definition arguments = .ok bindings)
    (works : definition.Works arena options.ignoreMethods (arena.Works options.ignoreMethods)
      (s.within bindings)) :
    OnlyFails CompileError.IsLimit (referenceBody compile ⟨arena, options, s⟩ definition arguments) := by
  unfold referenceBody
  refine OnlyFails.lift_bind ?_ fun inside entered => ?_
  · exact (s.onlyLimits_enter arena definition arguments).bind fun _ _ => .ok _
  obtain ⟨t, opened, made⟩ := bind_eq_ok.1 entered
  obtain rfl := Except.ok.inj made
  obtain ⟨bindings', bound', rfl⟩ := Substitution.enter_eq_within opened
  obtain rfl := Except.ok.inj (bound.symm.trans bound')
  cases works with
  | body plain given here =>
    rw [Definition.requireBody_eq_ok.2 given, plain]
    exact (compiled _ _ here).bind fun name => .pure _
  | merged derived merged here =>
    have merging : mergedShapeWithin arena (63 + 1) definition = .ok _ := merged
    obtain ⟨body, -, given, -⟩ := mergedShapeWithin_eq_ok merging
    rw [Definition.requireBody_eq_ok.2 given]
    refine OnlyFails.lift_bind (.ok body) fun _ _ => ?_
    rw [if_neg (fun none => derived (List.isEmpty_iff.1 none)), merged]
    exact OnlyFails.lift_bind (.ok _) fun _ same => Except.ok.inj same ▸ here.onlyLimits_objectBody compiled

include loose number

/-- A descriptor that is not one of a parameter. -/
theorem Descriptor.Works.onlyLimits_compileDescriptor {descriptor : Descriptor}
    (named : ∀ s type, Keeps (fun _ => True) (compile ⟨arena, options, s⟩ type) fun name =>
      ∃ own, Subject.Bears arena own (.ofType options.superfluousPropertyCheck (s, type)) name)
    (spells : descriptor.forwards = false → arena.Spells (s, type))
    (works : descriptor.Works arena options.ignoreMethods (arena.Works options.ignoreMethods) (s, type)) :
    OnlyFails CompileError.IsLimit (compileDescriptor depth compile ⟨arena, options, s⟩ type descriptor) := by
  unfold compileDescriptor
  split
  · exact Build.onlyFails_ensureExpr (.pure _)
  rename_i notLeaf
  cases descriptor with
  | array element => exact (spells rfl).onlyLimits_ensure (onlyFails_arrayBody (compiled s element works))
  | tuple elements =>
    exact (spells rfl).onlyLimits_ensure ((onlyFails_tupleCheck fun element inside =>
      compiled s element.type (works element inside)).bind fun _ => .pure _)
  | object shape =>
    exact (spells rfl).onlyLimits_ensure (ObjectShape.Works.onlyLimits_objectBody compiled works)
  | union members =>
    exact (spells rfl).onlyLimits_ensure ((onlyFails_unionCheck fun member inside =>
      compiled s member (works member inside)).bind fun _ => .pure _)
  | intersection members =>
    -- members are compiled without the check, which is off already
    have same : Context.withExact ⟨arena, options, s⟩ false = ⟨arena, options, s⟩ := by
      rw [Context.withExact, ← loose]
    have off (exact : Context.exact ⟨arena, options, s⟩ = true) :
        OnlyErrors CompileError.IsLimit (Context.collectKeys ⟨arena, options, s⟩ depth type) :=
      absurd (loose.symm.trans exact) nofun
    refine (spells rfl).onlyLimits_ensure ((onlyFails_intersectionCheck (fun member inside => ?_) off).bind
      fun _ => .pure _)
    rw [same]
    exact compiled s member (works member inside)
  | reference target arguments =>
    obtain ⟨definition, bindings, leads, bound, works⟩ := works
    refine OnlyFails.lift_bind (fun e failed => ?_) fun definition' found => ?_
    · cases failed.symm.trans (Arena.target_eq_ok.2 leads)
    obtain rfl := Option.some.inj (leads.symm.trans (Arena.target_eq_ok.1 found))
    exact (spells rfl).onlyLimits_ensure (onlyLimits_referenceBody compiled bound works)
  | indexAccess whole index =>
    obtain ⟨lists, fills, each, spelled⟩ := works
    refine onlyLimits_compileIndexAccess number loose named fills (fun choice inside other alike => ?_)
      (spelled.imp_left fun spells => spells.onlyLimits_nameOf options depth)
    exact onlyFails_compilePart (compiled _ _ ((each choice inside).of_alike alike.reading.symm)) _
  | keyof operand =>
    obtain ⟨keys?, b, options', depth', alike, collected⟩ := works
    exact (spells rfl).onlyLimits_ensure ((onlyFails_keyofCheck
      ((alike.collectKeys options options' depth depth').onlyLimits collected)).bind fun _ => .pure _)
  | parameter => cases works
  | _ => exact absurd works (by simp [Descriptor.Works, notLeaf])

end

/-- Without the check for superfluous keys, types that can be compiled fail at limits only. -/
theorem Arena.Works.onlyLimits_compileWithin (depth : Nat) (loose : options.superfluousPropertyCheck = false)
    (works : arena.Works options.ignoreMethods (s, type)) :
    OnlyFails CompileError.IsLimit (compileWithin depth ⟨arena, options, s⟩ type) := by
  induction depth generalizing s type with
  | zero => exact .throw (.inr ⟨type, rfl⟩)
  | succ depth ih =>
    unfold compileWithin
    obtain ⟨b, descriptor, stands, found, spells, works'⟩ := works.conditions
    cases stands with
    | itself plain =>
      simp only [Arena.lookup_eq_ok.2 found, Build.liftM_ok, pure_bind]
      exact works'.onlyLimits_compileDescriptor number loose (fun s type => ih)
        (Subject.bears_compileWithin number depth options) spells
    | next parameter bound other rest =>
      have stands := Arena.StandsFor.next parameter bound other rest
      simp only [Arena.lookup_eq_ok.2 parameter, Build.liftM_ok, pure_bind]
      refine OnlyFails.lift_bind (Context.onlyLimits_resolve fun e failed => ?_) fun stood leads => ?_
      · rcases stands.resolveWithin parameter maxResolutionSteps with resolved | ⟨e', failed', deep⟩
        · cases resolved.symm.trans failed
        · cases failed'.symm.trans failed
          exact deep
      · obtain ⟨target, visible⟩ := stood
        obtain ⟨outer, resolved, rfl⟩ := Context.resolve_eq_ok leads
        exact ih (works.of_alike (Arena.standsFor_of_resolveWithin parameter resolved).alike)

end

end ShapeCheck
