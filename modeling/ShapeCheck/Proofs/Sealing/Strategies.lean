import ShapeCheck.Compile.Basic
import ShapeCheck.Proofs.Sealing.Registries

set_option autoImplicit false

/-! # Every strategy seals

Each strategy calls only predicates whose names the compilation of a part returned; an indexed access
that selects one member returns the name of that member. This is proved once for each strategy and then
for all types by induction on the depth.

Main fact: `compileRoot_seals`.
-/

namespace ShapeCheck

theorem Descriptor.leaf?_calls {descriptor : Descriptor} {leaf : Leaf}
    (h : descriptor.leaf? = some leaf) : leaf.check.calls = [] := by
  cases descriptor with
  | keyword word => cases word <;> cases h <;> rfl
  | stringLiteral | numberLiteral | booleanLiteral | buffer | view =>
    cases h
    rfl
  | _ => cases h

/-! ## Composite types -/

section
variable {depth : Nat} {compile : Context → TypeId → Build String} {known : List String}
  (compiled : ∀ known ctx type, Seals known (compile ctx type) usesName) (ctx : Context)
include compiled

theorem compilePart_seals (type : TypeId) (optional : Bool) :
    Seals known (compilePart compile ctx type optional) usesName := by
  unfold compilePart
  refine (compiled known ctx type).bind fun name => ?_
  split
  · exact Build.optional_seals (by simp)
  · exact .pure (by simp)

theorem arrayBody_seals (element : TypeId) :
    Seals known (arrayBody compile ctx element) Stmt.calls := by
  unfold arrayBody
  refine (compiled known ctx element).bind fun name => Seals.get_bind fun r => ?_
  split
  · exact .pure nofun
  · refine .pure fun f used => ?_
    have only : Stmt.calls [.rejectUnless (.isArray .parameter),
        .forIndex Expr.indexName .parameter [memberCheck name Expr.indexName],
        .result (.bool true)] = [name] := rfl
    rw [only] at used
    exact List.mem_append_left _ used

theorem elementTests_seals (elements : List TupleElement) (position : Nat) :
    Seals known (elementTests compile ctx position elements) (usesAll Expr.calls) := by
  induction elements generalizing position known with
  | nil => exact .pure nofun
  | cons element rest ih =>
    refine (compilePart_seals compiled ctx element.type element.optional).bind fun name => ?_
    refine (ih (position + 1)).bind fun tests => .pure fun f used => ?_
    rw [usesAll, List.flatMap_cons] at used
    rcases List.mem_append.1 used with used | used
    · have here : f ∈ [name] := used
      simp [List.mem_singleton.1 here]
    · simp [used]

theorem tupleCheck_seals (elements : List TupleElement) :
    Seals known (tupleCheck compile ctx elements) Expr.calls := by
  refine (elementTests_seals compiled ctx elements 0).bind fun tests => .pure fun f used => ?_
  have lengths : (Expr.isArray .parameter :: lengthTests elements).flatMap Expr.calls = [] := by
    unfold lengthTests
    dsimp only
    split <;> rfl
  rw [Expr.calls_and, List.flatMap_append, lengths, List.nil_append] at used
  exact List.mem_append_left _ used

theorem propertyTest?_seals (property : Property) :
    Seals known (propertyTest? compile ctx property) fun test => test.toList.flatMap Expr.calls := by
  unfold propertyTest?
  split
  · exact .pure nofun
  split
  · split
    · exact .pure nofun
    · exact .throw _
  split
  · exact .throw _
  · refine (compiled known ctx _).bind fun name => .pure fun f used => List.mem_append_left _ ?_
    split at used <;> exact used

theorem keyLoop_seals (shape : ObjectShape) :
    Seals known (keyLoop compile ctx shape) Stmt.calls := by
  unfold keyLoop
  split
  · refine (compiled known ctx _).bind fun name => Seals.get_bind fun r => .pure fun f used => ?_
    refine List.mem_append_left _ ?_
    split at used
    · cases used
    · exact used
  · refine .pure fun f used => ?_
    split at used <;> cases used

theorem objectBody_seals (shape : ObjectShape) :
    Seals known (objectBody compile ctx shape) Stmt.calls := by
  unfold objectBody
  refine (Seals.filterMapM shape.properties fun property _ _ =>
    propertyTest?_seals compiled ctx property).bind fun tests => ?_
  have all : (Expr.and (Expr.plainObjectTests .parameter ++ tests)).calls =
      tests.flatMap Expr.calls := by
    rw [Expr.calls_and, List.flatMap_append]
    rfl
  refine (keyLoop_seals compiled ctx shape).bind fun loops => .pure fun f used => ?_
  split at used
  · rw [Stmt.calls_result, all] at used
    exact List.mem_append_right _ (List.mem_append_left _ used)
  · have verdict : Stmt.calls [.result (.bool true)] = [] := rfl
    rw [List.cons_append, Stmt.calls_rejectUnless, all, Stmt.calls_append, verdict,
      List.append_nil] at used
    rcases List.mem_append.1 used with used | used
    · exact List.mem_append_right _ (List.mem_append_left _ used)
    · exact List.mem_append_left _ used

theorem memberCalls_seals (members : List TypeId) :
    Seals known (memberCalls compile ctx members) (usesAll Expr.calls) := by
  refine (Seals.mapM members fun type _ known => compiled known ctx type).bind fun names => .pure ?_
  intro f used
  rw [usesAll, Expr.flatMap_calls_callOn, List.mem_eraseDups] at used
  simp [usesAll, used]

theorem unionCheck_seals (members : List TypeId) :
    Seals known (unionCheck compile ctx members) Expr.calls := by
  unfold unionCheck
  split
  · exact .pure nofun
  · refine (memberCalls_seals compiled ctx members).bind fun calls => .pure fun f used => ?_
    rw [Expr.calls_anyOf] at used
    exact List.mem_append_left _ used

omit compiled in
theorem exactKeysPredicate_seals (keys : List String) :
    Seals known (exactKeysPredicate keys) usesName :=
  Build.ensure_seals (.pure nofun)

theorem intersectionCheck_seals (type : TypeId) (members : List TypeId) :
    Seals known (intersectionCheck depth compile ctx type members) Expr.calls := by
  unfold intersectionCheck
  refine (memberCalls_seals compiled _ members).bind fun calls => ?_
  have alone : ∀ f ∈ (Expr.and calls).calls, f ∈ calls.flatMap Expr.calls ++ known := by
    intro f used
    rw [Expr.calls_and] at used
    exact List.mem_append_left _ used
  split
  · refine Seals.lift_bind fun keys? => ?_
    split
    · refine (exactKeysPredicate_seals _).bind fun name => .pure fun f used => ?_
      have both : (Expr.and (calls ++ [.callOn name])).calls = calls.flatMap Expr.calls ++ [name] := by
        rw [Expr.calls_and, List.flatMap_append]
        rfl
      rw [both] at used
      rcases List.mem_append.1 used with used | used
      · exact List.mem_append_right _ (List.mem_append_left _ used)
      · exact List.mem_append_left _ used
    · exact .pure alone
  · exact .pure alone

omit compiled in
theorem keyofCheck_seals (operand : TypeId) : Seals known (keyofCheck depth ctx operand) Expr.calls := by
  unfold keyofCheck
  refine Seals.lift_bind fun keys? => ?_
  split
  · rename_i keys
    have none : (Expr.or (keys.map fun key => .strictEq .parameter (.string key))).calls = [] := by
      rw [Expr.calls_or, List.flatMap_eq_nil_iff]
      intro e inside
      obtain ⟨key, -, rfl⟩ := List.mem_map.1 inside
      rfl
    exact .pure (by simp [none])
  · exact .pure nofun

theorem referenceBody_seals (definition : Definition) (arguments : List TypeId) :
    Seals known (referenceBody compile ctx definition arguments) Stmt.calls := by
  unfold referenceBody
  refine Seals.lift_bind fun inside => Seals.lift_bind fun body => ?_
  split
  · exact (compiled known inside body).bind fun name => .pure fun f used =>
      List.mem_append_left _ used
  · exact Seals.lift_bind fun shape => objectBody_seals compiled inside shape

/-! ## Indexed access -/

omit compiled in
theorem firstNonempty_seals {find : TypeId → Build (List String)}
    (found : ∀ known type, Seals known (find type) id) (types : List TypeId) :
    Seals known (firstNonempty find types) id := by
  induction types generalizing known with
  | nil => exact .pure nofun
  | cons type rest ih =>
    refine (found known type).bind fun names => ?_
    split
    · exact ih
    · exact .pure fun f used => List.mem_append_left _ used

theorem objectMembers_seals (shape : ObjectShape) (key : IndexKey) :
    Seals known (objectMembers compile ctx shape key) id := by
  unfold objectMembers
  dsimp only
  split
  · split
    · exact .pure nofun
    split
    · exact .throw _
    · exact (compilePart_seals compiled ctx _ _).bind fun _ => .pure fun f used =>
        List.mem_append_left _ used
  · split
    · exact (compiled known ctx _).bind fun _ => .pure fun f used => List.mem_append_left _ used
    · exact .pure nofun

theorem arrayMembers_seals (element : TypeId) (key : IndexKey) :
    Seals known (arrayMembers compile ctx element key) id := by
  have member (type : TypeId) : Seals known (do return [← compile ctx type]) id :=
    (compiled known ctx type).bind fun _ => .pure fun f used => List.mem_append_left _ used
  unfold arrayMembers
  split
  · exact member element
  · exact member element
  · exact member _
  · exact .pure nofun

theorem tupleMembers_seals (elements : List TupleElement) (key : IndexKey) :
    Seals known (tupleMembers compile ctx elements key) id := by
  unfold tupleMembers
  split
  · split
    · exact (compilePart_seals compiled ctx _ _).bind fun _ => .pure fun f used =>
        List.mem_append_left _ used
    · exact .pure nofun
  · refine (Seals.mapM elements fun element _ known => compiled known ctx element.type).bind
      fun names => .pure fun f used => ?_
    have listed : f ∈ names := List.mem_eraseDups.1 used
    simp [usesAll, listed]
  · exact (compiled known ctx _).bind fun _ => .pure fun f used => List.mem_append_left _ used
  · exact .pure nofun

theorem membersWithin_seals (key : IndexKey) (steps : Nat) (type : TypeId) :
    Seals known (membersWithin compile key steps ctx type) id := by
  induction steps generalizing ctx type known with
  | zero => exact .throw _
  | succ steps ih =>
    unfold membersWithin
    refine Seals.lift_bind fun descriptor => ?_
    split
    · exact objectMembers_seals compiled ctx _ key
    · exact arrayMembers_seals compiled ctx _ key
    · exact tupleMembers_seals compiled ctx _ key
    · refine Seals.lift_bind fun definition => Seals.lift_bind fun inside => ?_
      exact Seals.lift_bind fun body => firstNonempty_seals (fun _ type => ih inside type) _
    · exact Seals.lift_bind fun target => ih target.2 target.1
    · refine (Seals.mapM _ fun member _ _ => ih ctx member).bind fun found => .pure fun f used => ?_
      have listed : f ∈ found.flatten := List.mem_eraseDups.1 used
      rw [usesAll, List.flatMap_id]
      exact List.mem_append_left _ listed
    · exact firstNonempty_seals (fun _ type => ih ctx type) _
    · exact .pure (by rintro _ ⟨⟩)

theorem compileIndexAccess_seals (type whole index : TypeId) :
    Seals known (compileIndexAccess depth compile ctx type whole index) usesName := by
  have selected (known : List String) (key : IndexKey) :
      Seals known (selectedMembers depth compile ctx type whole key) id := by
    unfold selectedMembers
    refine (membersWithin_seals compiled ctx key _ whole).bind fun found => ?_
    split
    · exact Seals.lift_bind fun name => .throw _
    · exact .pure fun f used => List.mem_append_left _ used
  unfold compileIndexAccess
  refine Seals.lift_bind fun keys => (Seals.mapM keys fun key _ known => selected known key).bind
    fun found => ?_
  have listed : ∀ f ∈ found.flatten.eraseDups, f ∈ usesAll id found := by
    intro f inside
    simpa [usesAll, List.flatMap_id] using List.mem_eraseDups.1 inside
  split
  · exact .throw _
  · -- a single predicate is handed on under its own name
    rename_i name single
    exact .pure fun f used => List.mem_append_left _ (listed f (single ▸ used))
  · refine Seals.lift_bind fun name => Build.ensureExpr_seals (.pure fun f used => ?_)
    rw [Expr.calls_or, Expr.flatMap_calls_callOn] at used
    exact List.mem_cons_of_mem _ (List.mem_append_left _ (listed f used))

/-! ## All types -/

theorem compileDescriptor_seals (type : TypeId) (descriptor : Descriptor) :
    Seals known (compileDescriptor depth compile ctx type descriptor) usesName := by
  unfold compileDescriptor
  split
  · rename_i leaf isLeaf
    exact Build.ensureExpr_seals (.pure (by simp [Descriptor.leaf?_calls isLeaf]))
  split
  · exact Seals.lift_bind fun name => Build.ensure_seals (arrayBody_seals compiled ctx _)
  · exact Seals.lift_bind fun name => Build.ensureExpr_seals (tupleCheck_seals compiled ctx _)
  · exact Seals.lift_bind fun name => Build.ensure_seals (objectBody_seals compiled ctx _)
  · exact Seals.lift_bind fun name => Build.ensureExpr_seals (unionCheck_seals compiled ctx _)
  · exact Seals.lift_bind fun name =>
      Build.ensureExpr_seals (intersectionCheck_seals compiled ctx type _)
  · exact Seals.lift_bind fun definition => Seals.lift_bind fun name =>
      Build.ensure_seals (referenceBody_seals compiled ctx definition _)
  · exact Seals.lift_bind fun target => compiled known target.2 target.1
  · exact compileIndexAccess_seals compiled ctx type _ _
  · exact Seals.lift_bind fun name => Build.ensureExpr_seals (keyofCheck_seals ctx _)
  · exact .throw _

end

theorem compileWithin_seals (depth : Nat) (known : List String) (ctx : Context) (type : TypeId) :
    Seals known (compileWithin depth ctx type) usesName := by
  induction depth generalizing known ctx type with
  | zero => exact .throw _
  | succ depth ih =>
    unfold compileWithin
    exact Seals.lift_bind fun descriptor => compileDescriptor_seals ih ctx type descriptor

/-- What a compilation returns is the name of a predicate, and whatever it has registered calls names
that it has registered. -/
theorem compileRoot_seals (ctx : Context) (type : TypeId) :
    Seals [] (ctx.compileRoot type) usesName := by
  unfold Context.compileRoot
  split
  · exact compileWithin_seals _ _ ctx _
  · refine (compileWithin_seals _ _ ctx type).bind fun name => ?_
    split
    · exact Build.optional_seals (by simp)
    · exact .pure (by simp)

end ShapeCheck
