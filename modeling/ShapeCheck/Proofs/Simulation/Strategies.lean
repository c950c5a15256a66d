import ShapeCheck.Compile.Basic
import ShapeCheck.Proofs.Simulation.Comparisons
import ShapeCheck.Proofs.Termination.Selection

set_option autoImplicit false

/-! # Compilations side by side

Types that look the same are compiled in the same way: started on the same registry, their compilations
build the same predicates under the same names, in the same order. Every strategy is compared once, for
parts whose compilations are compared already; then types are by induction on the depth.

Main facts: `IsSimulation.compileWithin` and `IsSimulation.compile`.
-/

namespace ShapeCheck

section
variable {stop : CompileError → Prop} {S : Context → TypeId → Context → TypeId → Prop}
  {ctx ctx' : Context} {type type' : TypeId}

/-! ## Parts -/

theorem isComparison_tracks : IsComparison (Tracks stop) where
  pure h := .pure h
  throw := .throw
  bind first second := first.bind second

section
variable {compile compile' : Context → TypeId → Build String} {R : TypeId → TypeId → Prop}
  (parts : ∀ type type', R type type' → Tracks stop Eq (compile ctx type) (compile' ctx' type'))
include parts

theorem tracks_compilePart (optional : Bool) (h : R type type') :
    Tracks stop Eq (compilePart compile ctx type optional) (compilePart compile' ctx' type' optional) :=
  (parts _ _ h).bind fun _ _ same => same ▸ .refl _

theorem tracks_askPart (h : R type type') :
    Tracks stop Eq (askPart compile ctx type) (askPart compile' ctx' type') :=
  (parts _ _ h).bind fun _ _ same => same ▸ .refl _

theorem tracks_arrayBody {element element' : TypeId} (h : R element element') :
    Tracks stop Eq (arrayBody compile ctx element) (arrayBody compile' ctx' element') :=
  isComparison_tracks.arrayBody (tracks_askPart parts h)

theorem tracks_tupleCheck {elements elements' : List TupleElement}
    (h : List.Forall₂ (TupleElement.Pairs R) elements elements') :
    Tracks stop Eq (tupleCheck compile ctx elements) (tupleCheck compile' ctx' elements') :=
  isComparison_tracks.tupleCheck h fun _ _ _ _ pair => pair.optional ▸ tracks_compilePart parts _ pair.type

theorem tracks_objectBody (options : ctx.options = ctx'.options) {shape shape' : ObjectShape}
    (h : shape.Pairs R shape') :
    Tracks stop Eq (objectBody compile ctx shape) (objectBody compile' ctx' shape') :=
  isComparison_tracks.objectBody (congrArg _ options) h
    (fun _ => by rw [Context.exact, Context.exact, options])
    (fun _ _ _ _ _ _ _ _ _ _ _ related => parts _ _ related)
    fun _ _ _ _ related => tracks_askPart parts related

theorem tracks_memberCalls {members members' : List TypeId} (h : List.Forall₂ R members members') :
    Tracks stop Eq (memberCalls compile ctx members) (memberCalls compile' ctx' members') :=
  isComparison_tracks.memberCalls (h.imp parts)

theorem tracks_unionCheck {members members' : List TypeId} (h : List.Forall₂ R members members') :
    Tracks stop Eq (unionCheck compile ctx members) (unionCheck compile' ctx' members') :=
  isComparison_tracks.unionCheck (h.imp parts)

/-! ## Members -/

omit parts in
/-- A name finds related members or none. -/
theorem ObjectShape.Pairs.property? {shape shape' : ObjectShape}
    (h : shape.Pairs R shape') (name : String) :
    Option.Rel (Property.Pairs R) (shape.property? name) (shape'.property? name) := by
  have members := h.properties
  unfold ObjectShape.property?
  generalize shape.properties = properties at members ⊢
  generalize shape'.properties = properties' at members ⊢
  induction members with
  | nil => exact .none
  | cons here _ ih =>
    rw [List.find?_cons, List.find?_cons, here.name]
    split
    · exact .some here
    · exact ih

omit parts in
theorem ObjectShape.Pairs.declared? {shape shape' : ObjectShape} (h : shape.Pairs R shape')
    (key : IndexKey) : Option.Rel (Property.Pairs R) (shape.declared? key) (shape'.declared? key) := by
  cases key with
  | name text => exact h.property? text
  | number x => exact h.property? x.text
  | anyString | anyNumber => exact .none

theorem tracks_objectMembers {shape shape' : ObjectShape} (h : shape.Pairs R shape') (key : IndexKey) :
    Tracks stop Eq (objectMembers compile ctx shape key) (objectMembers compile' ctx' shape' key) := by
  have declared := h.declared? key
  rw [objectMembers_eq, objectMembers_eq]
  generalize shape.declared? key = found at declared ⊢
  generalize shape'.declared? key = found' at declared ⊢
  cases declared with
  | @some property property' pair =>
    have typed := pair.type
    dsimp only
    rw [pair.method, pair.optional]
    split
    · exact .refl _
    cases here : property.type <;> cases there : property'.type <;> rw [here, there] at typed <;>
      cases typed
    · exact .throw _ _
    · rename_i related
      exact (tracks_compilePart parts _ related).bind fun _ _ same => same ▸ .refl _
  | none =>
    have indexed := h.index
    dsimp only
    cases here : shape.index <;> cases there : shape'.index <;> rw [here, there] at indexed <;>
      cases indexed
    · exact .refl _
    · rename_i related
      exact (parts _ _ related).bind fun _ _ same => same ▸ .refl _

theorem tracks_arrayMembers {element element' : TypeId} (h : R element element')
    (number : R (.ofKeyword .number) (.ofKeyword .number)) (key : IndexKey) :
    Tracks stop Eq (arrayMembers compile ctx element key) (arrayMembers compile' ctx' element' key) := by
  have item := (parts _ _ h).bind fun name name' (same : name = name') =>
    (same ▸ .refl _ : Tracks stop Eq (return [name] : Build (List String)) (return [name']))
  have length := (parts _ _ number).bind fun name name' (same : name = name') =>
    (same ▸ .refl _ : Tracks stop Eq (return [name] : Build (List String)) (return [name']))
  unfold arrayMembers
  split
  · exact item
  · exact item
  · exact length
  · exact .refl _

omit parts in
/-- Tuples with the same positions have the same one under a number. -/
theorem rel_position {elements elements' : List TupleElement}
    (h : List.Forall₂ (TupleElement.Pairs R) elements elements') (x : Double) :
    Option.Rel (TupleElement.Pairs R) (if x.isPosition then elements[x.toPosition]? else none)
      (if x.isPosition then elements'[x.toPosition]? else none) := by
  have at? (position : Nat) : Option.Rel (TupleElement.Pairs R) elements[position]? elements'[position]? := by
    induction h generalizing position with
    | nil => exact .none
    | cons here _ ih =>
      cases position with
      | zero => exact .some here
      | succ position => exact ih position
  split
  · exact at? _
  · exact .none

theorem tracks_tupleMembers {elements elements' : List TupleElement}
    (h : List.Forall₂ (TupleElement.Pairs R) elements elements')
    (number : R (.ofKeyword .number) (.ofKeyword .number)) (key : IndexKey) :
    Tracks stop Eq (tupleMembers compile ctx elements key) (tupleMembers compile' ctx' elements' key) := by
  unfold tupleMembers
  split
  · rename_i x
    have found := rel_position h x
    generalize (if x.isPosition then elements[x.toPosition]? else none) = element at found ⊢
    generalize (if x.isPosition then elements'[x.toPosition]? else none) = element' at found ⊢
    cases found with
    | none => exact .refl _
    | some pair =>
      dsimp only
      rw [pair.optional]
      exact (tracks_compilePart parts _ pair.type).bind fun _ _ same => same ▸ .refl _
  · have items : List.Forall₂ (fun element element' : TupleElement =>
        Tracks stop Eq (compile ctx element.type) (compile' ctx' element'.type)) elements elements' :=
      h.imp fun _ _ pair => parts _ _ pair.type
    refine (Tracks.mapM items).bind fun names names' same => ?_
    obtain rfl : names = names' := List.forall₂_eq_eq_eq ▸ same
    exact .refl _
  · exact (parts _ _ number).bind fun _ _ same => same ▸ .refl _
  · exact .refl _

end

theorem tracks_firstNonempty {α : Type} {find find' : TypeId → Build (List α)} {types types' : List TypeId}
    (h : List.Forall₂ (fun type type' => Tracks stop Eq (find type) (find' type')) types types') :
    Tracks stop Eq (firstNonempty find types) (firstNonempty find' types') := by
  induction h with
  | nil => exact .refl _
  | cons here _ ih =>
    unfold firstNonempty
    refine here.bind fun found _ same => ?_
    subst same
    split
    · exact ih
    · exact .refl _

/-! ## Types -/

section
variable {compile compile' : Context → TypeId → Build String} (sim : IsSimulation stop S) {depth : Nat}
  (parts : ∀ {ctx type ctx' type'}, S ctx type ctx' type' →
    Tracks stop Eq (compile ctx type) (compile' ctx' type'))
include sim parts

theorem tracks_intersectionCheck (h : S ctx type ctx' type') {members members' : List TypeId}
    (related : List.Forall₂ (fun part part' => S ctx part ctx' part') members members') :
    Tracks stop Eq (intersectionCheck depth compile ctx type members)
      (intersectionCheck depth compile' ctx' type' members') := by
  have lenient := related.imp fun _ _ part => sim.withExact false part
  have exact : ctx.exact = ctx'.exact := by rw [Context.exact, Context.exact, sim.options h]
  unfold intersectionCheck
  rw [exact]
  refine (tracks_memberCalls (R := fun part part' => S (ctx.withExact false) part (ctx'.withExact false) part')
    (fun _ _ part => parts part) lenient).bind fun calls _ same => ?_
  subst same
  split
  · exact (Tracks.lift (sim.collectKeys depth h)).bind fun _ _ same => same ▸ .refl _
  · exact .refl _

omit parts in
theorem tracks_keyofCheck (h : S ctx type ctx' type') :
    Tracks stop Eq (keyofCheck depth ctx type) (keyofCheck depth ctx' type') :=
  (Tracks.lift (sim.collectKeys depth h)).bind fun _ _ same => same ▸ .refl _

omit sim in
theorem tracks_referenceBody {definition definition' : Definition} {arguments arguments' : List TypeId}
    (alike : ctx.DefinitionsAlike stop S ctx' definition definition' arguments arguments')
    (options : ctx.options = ctx'.options) :
    Tracks stop Eq (referenceBody compile ctx definition arguments)
      (referenceBody compile' ctx' definition' arguments') := by
  unfold referenceBody
  -- what is inside has the options of the reference
  have entered : Follows stop
      (fun inside inside' => ctx.InsideAlike stop S inside definition ctx' inside' definition' ∧
        inside.options = inside'.options)
      (ctx.enter definition arguments) (ctx'.enter definition' arguments') :=
    alike.inside.bind fun s s' within => ⟨within, options⟩
  refine (Tracks.lift entered).bind fun inside inside' ⟨within, options⟩ => ?_
  refine (Tracks.lift alike.requireBody).bind fun body body' given => ?_
  have bases : definition.bases.isEmpty = definition'.bases.isEmpty := by
    rw [Bool.eq_iff_iff, List.isEmpty_iff_length_eq_zero, List.isEmpty_iff_length_eq_zero,
      within.bases.length_eq]
  rw [bases]
  split
  · exact (parts (within.body body given.1 body' given.2)).bind fun _ _ same => same ▸ .refl _
  · exact (Tracks.lift within.merged).bind fun shape shape' pair =>
      tracks_objectBody (fun _ _ part => parts part) options pair

theorem tracks_membersWithin (key : IndexKey) (steps : Nat) (h : S ctx type ctx' type') :
    Tracks stop Eq (membersWithin compile key steps ctx type)
      (membersWithin compile' key steps ctx' type') := by
  induction steps generalizing ctx type ctx' type' with
  | zero => exact .throw _ _
  | succ steps ih =>
    have here (part part' : TypeId) (related : S ctx part ctx' part') :
        Tracks stop Eq (compile ctx part) (compile' ctx' part') := parts related
    unfold membersWithin
    refine (Tracks.lift (sim.lookup h)).bind fun descriptor descriptor' pair => ?_
    cases pair with
    | @plain descriptor isPlain =>
      cases descriptor <;> first | exact isPlain.elim | exact .refl _
    | object related => exact tracks_objectMembers here related key
    | array related => exact tracks_arrayMembers here related (sim.keyword .number h) key
    | tuple related => exact tracks_tupleMembers here related (sim.keyword .number h) key
    | reference refers =>
      refine (Tracks.lift refers.target).bind fun definition definition' alike => ?_
      refine (Tracks.lift alike.enter).bind fun inside inside' within => ?_
      refine (Tracks.lift alike.requireBody).bind fun body body' given => ?_
      exact tracks_firstNonempty ((within.parts given).imp fun _ _ part => ih part)
    | parameter stands => exact (Tracks.lift stands.resolve).bind fun found found' related => ih related
    | union related =>
      refine (Tracks.mapM (related.imp fun _ _ part => ih part)).bind fun lists lists' same => ?_
      obtain rfl : lists = lists' := List.forall₂_eq_eq_eq ▸ same
      exact .refl _
    | intersection related => exact tracks_firstNonempty (related.imp fun _ _ part => ih part)
    | indexAccess | keyof => exact .refl _

theorem tracks_compileIndexAccess (h : S ctx type ctx' type') {whole whole' index index' : TypeId}
    (isWhole : S ctx whole ctx' whole') (isIndex : S ctx index ctx' index') :
    Tracks stop Eq (compileIndexAccess depth compile ctx type whole index)
      (compileIndexAccess depth compile' ctx' type' whole' index') := by
  have selected (key : IndexKey) :
      Tracks stop Eq (selectedMembers depth compile ctx type whole key)
        (selectedMembers depth compile' ctx' type' whole' key) := by
    unfold selectedMembers
    refine (tracks_membersWithin sim parts key maxResolutionSteps isWhole).bind fun found _ same => ?_
    subst same
    split
    · exact (Tracks.lift (sim.nameOf depth h)).bind fun _ _ _ => .throw _ _
    · exact .refl _
  unfold compileIndexAccess
  refine (Tracks.lift (sim.indexKeys depth isIndex)).bind fun keys _ same => ?_
  subst same
  have all : List.Forall₂ (fun key key' => Tracks stop Eq (selectedMembers depth compile ctx type whole key)
      (selectedMembers depth compile' ctx' type' whole' key')) keys keys :=
    List.forall₂_same.2 fun key _ => selected key
  refine (Tracks.mapM all).bind fun lists lists' same => ?_
  obtain rfl : lists = lists' := List.forall₂_eq_eq_eq ▸ same
  split
  · exact .throw _ _
  · exact .refl _
  · exact (Tracks.lift (sim.nameOf depth h)).bind fun _ _ same => same ▸ .refl _

theorem tracks_compileDescriptor (h : S ctx type ctx' type') {descriptor descriptor' : Descriptor}
    (pair : ctx.Pairs stop S ctx' descriptor descriptor') :
    Tracks stop Eq (compileDescriptor depth compile ctx type descriptor)
      (compileDescriptor depth compile' ctx' type' descriptor') := by
  have here (part part' : TypeId) (related : S ctx part ctx' part') :
      Tracks stop Eq (compile ctx part) (compile' ctx' part') := parts related
  have named {build build' : String → Build String} (each : ∀ name, Tracks stop Eq (build name) (build' name)) :
      Tracks stop Eq ((liftM (ctx.nameOf depth type) : Build String) >>= build)
        ((liftM (ctx'.nameOf depth type') : Build String) >>= build') :=
    (Tracks.lift (sim.nameOf depth h)).bind fun name _ same => same ▸ each name
  unfold compileDescriptor
  cases pair with
  | @plain descriptor isPlain =>
    split
    · exact .refl _
    · cases descriptor <;> first | exact isPlain.elim | exact .throw _ _
  | array related => exact named fun name => .ensure name none (tracks_arrayBody here related)
  | tuple related => exact named fun name => .ensureExpr name none (tracks_tupleCheck here related)
  | object related =>
    exact named fun name => .ensure name none (tracks_objectBody here (sim.options h) related)
  | union related => exact named fun name => .ensureExpr name none (tracks_unionCheck here related)
  | intersection related =>
    exact named fun name => .ensureExpr name none (tracks_intersectionCheck sim parts h related)
  | reference refers =>
    refine (Tracks.lift refers.target).bind fun definition definition' alike => ?_
    exact named fun name => .ensure name none (tracks_referenceBody (S := S) parts alike (sim.options h))
  | parameter stands => exact (Tracks.lift stands.resolve).bind fun found found' related => parts related
  | indexAccess whole key => exact tracks_compileIndexAccess sim parts h whole key
  | keyof related => exact named fun name => .ensureExpr name none (tracks_keyofCheck sim related)

end

/-! ## All depths -/

/-- Related types are compiled in the same way, within every depth. -/
theorem IsSimulation.compileWithin (sim : IsSimulation stop S) (depth : Nat) (h : S ctx type ctx' type') :
    Tracks stop Eq (ShapeCheck.compileWithin depth ctx type) (ShapeCheck.compileWithin depth ctx' type') := by
  induction depth generalizing ctx type ctx' type' with
  | zero => exact .throw _ _
  | succ depth ih =>
    unfold ShapeCheck.compileWithin
    refine (Tracks.lift (sim.lookup h)).bind fun descriptor descriptor' pair => ?_
    exact tracks_compileDescriptor sim ih h pair

theorem IsSimulation.compileRoot (sim : IsSimulation stop S) (h : S ctx type ctx' type') :
    Tracks stop Eq (ctx.compileRoot type) (ctx'.compileRoot type') := by
  unfold Context.compileRoot
  rw [sim.options h]
  split
  · exact sim.compileWithin _ (sim.keyword .any h)
  · exact (sim.compileWithin _ h).bind fun _ _ same => same ▸ .refl _

/-- Related roots have the same validators. -/
theorem IsSimulation.compile (sim : IsSimulation stop S) {arena arena' : Arena} {options : CompileOptions}
    (h : S (.root arena options) type (.root arena' options) type') :
    Follows stop Eq (arena.compile type options) (arena'.compile type' options) := by
  have ended := sim.compileRoot h .empty
  unfold Arena.compile
  generalize ((Context.root arena options).compileRoot type).run.run .empty = result at ended ⊢
  generalize ((Context.root arena' options).compileRoot type').run.run .empty = result' at ended ⊢
  obtain ⟨x, registry⟩ := result
  obtain ⟨y, registry'⟩ := result'
  cases x <;> cases y
  · exact Follows.error _ _
  · exact ended
  · exact ended.elim
  · obtain ⟨rfl, rfl⟩ := ended
    exact Follows.refl _

end

end ShapeCheck
