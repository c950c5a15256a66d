import ShapeCheck.Proofs.Naming.Quotation
import ShapeCheck.Proofs.Recursion.Forwarding
import ShapeCheck.Proofs.Termination.Walks

set_option autoImplicit false

/-! # What compiled predicates hand on

The predicates of arrays, tuples and objects look at parts of the value only. Those of unions,
intersections and references hand the value on to the predicates of the types that the type itself hands
it on to. This is proved once for each strategy, and for all types by induction on the depth.

Main facts: `compileWithin_forwarding` and `compileRoot_forwarding`.
-/

namespace ShapeCheck

open Context

section
variable {root : Context × TypeId} {depth : Nat} {compile : Context → TypeId → Build String}
  {ctx : Context} {type : TypeId}

theorem ensure_of {name : String} {reason : Option Reason} {body : Build (List Stmt)}
    (reached : Reaches root (ctx, type)) (named : IsNamed (ctx, type) name)
    (built : KeepsOf root body fun stmts => ∀ f ∈ Stmt.ownCalls stmts,
      (∃ next, Passes (ctx, type) next ∧ IsNamed next f) ∨ ∃ keys, f = exactKeysName keys) :
    KeepsOf root (Build.ensure name reason body) (IsNamed (ctx, type)) :=
  (Build.ensure_keeps (built.mono fun _ own => .type reached named own)).mono
    fun _ same => same ▸ named

theorem optional_of {inner : String} (reached : Reaches root (ctx, type))
    (named : IsNamed (ctx, type) inner) : KeepsOf root (Build.optional inner) fun _ => True := by
  have own : ∀ f ∈ Stmt.ownCalls [.result (.or [.strictEq .parameter .undefined, .callOn inner])],
      f = inner := by
    intro f inside
    rw [Stmt.ownCalls_result, Expr.ownCalls_or] at inside
    exact List.mem_singleton.1 inside
  exact (Build.ensure_keeps (Keeps.pure (.optional reached named rfl own))).mono fun _ _ => trivial

/-- Bodies that look at parts of the value only. -/
def NoOwnCalls (stmts : List Stmt) : Prop := Stmt.ownCalls stmts = []

variable (compiled : ∀ ctx type, Reaches root (ctx, type) → KeepsOf root (compile ctx type) (IsNamed (ctx, type)))
include compiled

theorem compilePart_of (reached : Reaches root (ctx, type)) (optional : Bool) :
    KeepsOf root (compilePart compile ctx type optional) fun _ => True := by
  unfold compilePart
  refine (compiled ctx type reached).bind fun name named => ?_
  split
  · exact optional_of reached named
  · exact .pure trivial

theorem arrayBody_of {element : TypeId} (reached : Reaches root (ctx, element)) :
    KeepsOf root (arrayBody compile ctx element) NoOwnCalls := by
  unfold arrayBody
  refine (compiled ctx element reached).bind fun name _ => Keeps.get_bind fun r _ => ?_
  split
  · exact .pure rfl
  · exact .pure rfl

theorem elementTests_of {elements : List TupleElement} (position : Nat)
    (reached : ∀ element ∈ elements, Reaches root (ctx, element.type)) :
    KeepsOf root (elementTests compile ctx position elements)
      fun tests => tests.flatMap Expr.ownCalls = [] := by
  induction elements generalizing position with
  | nil => exact .pure rfl
  | cons element rest ih =>
    refine (compilePart_of compiled (reached element List.mem_cons_self) element.optional).bind
      fun name _ => ?_
    refine (ih (position + 1) fun other inside => reached other (List.mem_cons_of_mem _ inside)).bind
      fun tests none => .pure ?_
    rw [List.flatMap_cons, none]
    rfl

theorem tupleCheck_of {elements : List TupleElement}
    (reached : ∀ element ∈ elements, Reaches root (ctx, element.type)) :
    KeepsOf root (tupleCheck compile ctx elements) fun e => e.ownCalls = [] := by
  refine (elementTests_of compiled 0 reached).bind fun tests none => .pure ?_
  have lengths : (Expr.isArray .parameter :: lengthTests elements).flatMap Expr.ownCalls = [] := by
    unfold lengthTests
    dsimp only
    split <;> rfl
  rw [Expr.ownCalls_and, List.flatMap_append, lengths, none, List.append_nil]

theorem propertyTest?_of {property : Property}
    (reached : ∀ type ∈ property.type, Reaches root (ctx, type)) :
    KeepsOf root (propertyTest? compile ctx property)
      fun test => test.toList.flatMap Expr.ownCalls = [] := by
  unfold propertyTest?
  split
  · exact .pure rfl
  · split
    · split
      · exact .pure rfl
      · exact .throw _
    · split
      · exact .throw _
      · rename_i type typed
        refine (compiled ctx type (reached type typed)).bind fun name _ => .pure ?_
        split <;> rfl

theorem objectBody_of {shape : ObjectShape}
    (reached : ∀ type ∈ memberTypes shape, Reaches root (ctx, type)) :
    KeepsOf root (objectBody compile ctx shape) NoOwnCalls := by
  have properties : ∀ property ∈ shape.properties, ∀ type ∈ property.type,
      Reaches root (ctx, type) := fun property inside type typed =>
    reached type (List.mem_append_left _ (List.mem_filterMap.2 ⟨property, inside, typed⟩))
  have loop : KeepsOf root (keyLoop compile ctx shape) NoOwnCalls := by
    unfold keyLoop
    split
    · rename_i type index
      have member : type ∈ memberTypes shape := List.mem_append_right _ (by simp [index])
      refine (compiled ctx type (reached type member)).bind fun name _ => Keeps.get_bind fun r _ => .pure ?_
      split <;> rfl
    · refine .pure ?_
      split <;> rfl
  unfold objectBody
  refine (Keeps.filterMapM fun property inside =>
    propertyTest?_of compiled (properties property inside)).bind ?_
  rintro tests ⟨found, related, rfl⟩
  refine loop.bind fun loops none => .pure ?_
  have members : (found.filterMap id).flatMap Expr.ownCalls = [] := by
    rw [List.flatMap_eq_nil_iff]
    intro test inside
    obtain ⟨test?, listed, rfl⟩ := List.mem_filterMap.1 inside
    obtain ⟨property, -, none⟩ := exists_left_of_forall₂ related listed
    simpa using none
  have all : (Expr.and (Expr.plainObjectTests .parameter ++ found.filterMap id)).ownCalls = [] := by
    rw [Expr.ownCalls_and, List.flatMap_append, members]
    rfl
  split
  · rw [NoOwnCalls, Stmt.ownCalls_result, all]
  · rw [NoOwnCalls, List.cons_append, Stmt.ownCalls_rejectUnless, Stmt.ownCalls_append, all, none]
    rfl

theorem memberCalls_of {members : List TypeId}
    (reached : ∀ member ∈ members, Reaches root (ctx, member)) :
    KeepsOf root (memberCalls compile ctx members) fun calls =>
      ∀ f ∈ calls.flatMap Expr.ownCalls, ∃ member ∈ members, IsNamed (ctx, member) f := by
  refine (Keeps.mapM fun member inside => compiled ctx member (reached member inside)).bind
    fun names related => .pure ?_
  intro f inside
  rw [Expr.flatMap_ownCalls_callOn, List.mem_eraseDups] at inside
  exact exists_left_of_forall₂ related inside

theorem unionCheck_of {members : List TypeId} (found : ctx.arena.lookup? type = some (.union members))
    (reached : Reaches root (ctx, type)) :
    KeepsOf root (unionCheck compile ctx members) fun e => ∀ f ∈ e.ownCalls,
      ∃ next, Passes (ctx, type) next ∧ IsNamed next f := by
  have members : ∀ member ∈ members, Reaches root (ctx, member) :=
    fun member inside => reached.tail (.inl (.alternative found inside))
  unfold unionCheck
  split
  · exact .pure nofun
  · refine (memberCalls_of compiled members).bind fun calls own => .pure fun f inside => ?_
    rw [Expr.ownCalls_anyOf] at inside
    obtain ⟨member, listed, named⟩ := own f inside
    exact ⟨_, .alternative found listed, named⟩

omit compiled in
theorem exactKeysPredicate_of (keys : List String) :
    KeepsOf root (exactKeysPredicate keys) (· = exactKeysName keys) :=
  Build.ensure_keeps (Keeps.pure (.keys rfl rfl))

theorem intersectionCheck_of {members : List TypeId}
    (found : ctx.arena.lookup? type = some (.intersection members))
    (reached : Reaches root (ctx, type)) :
    KeepsOf root (intersectionCheck depth compile ctx type members) fun e => ∀ f ∈ e.ownCalls,
      (∃ next, Passes (ctx, type) next ∧ IsNamed next f) ∨ ∃ keys, f = exactKeysName keys := by
  have members : ∀ member ∈ members, Reaches root (ctx.withExact false, member) :=
    fun member inside => reached.tail (.inl (.conjunct found inside))
  unfold intersectionCheck
  refine (memberCalls_of compiled members).bind fun calls own => ?_
  have passed : ∀ f ∈ calls.flatMap Expr.ownCalls, ∃ next, Passes (ctx, type) next ∧ IsNamed next f := by
    intro f inside
    obtain ⟨member, listed, named⟩ := own f inside
    exact ⟨_, .conjunct found listed, named⟩
  have alone : ∀ f ∈ (Expr.and calls).ownCalls,
      (∃ next, Passes (ctx, type) next ∧ IsNamed next f) ∨ ∃ keys, f = exactKeysName keys := by
    intro f inside
    rw [Expr.ownCalls_and] at inside
    exact .inl (passed f inside)
  split
  · refine Keeps.lift_bind fun keys? _ => ?_
    cases keys? with
    | none => exact .pure alone
    | some keys =>
      refine (exactKeysPredicate_of keys).bind fun name isKeys => .pure fun f inside => ?_
      rw [Expr.ownCalls_and, List.flatMap_append, List.mem_append] at inside
      rcases inside with inside | inside
      · exact .inl (passed f inside)
      · obtain rfl : f = name := by simpa [Expr.ownCalls_callOn] using inside
        exact .inr ⟨keys, isKeys⟩
  · exact .pure alone

omit compiled in
theorem keyofCheck_of (operand : TypeId) :
    KeepsOf root (keyofCheck depth ctx operand) fun e => e.ownCalls = [] := by
  unfold keyofCheck
  refine Keeps.lift_bind fun keys? _ => ?_
  cases keys? with
  | none => exact .pure rfl
  | some keys =>
    refine .pure ?_
    rw [Expr.ownCalls_or, List.flatMap_map, List.flatMap_eq_nil_iff]
    exact fun _ _ => rfl

theorem referenceBody_of {target : DefinitionId} {arguments : List TypeId} {definition : Definition}
    (found : ctx.arena.lookup? type = some (.reference target arguments))
    (leads : ctx.arena.definition? target = some definition) (reached : Reaches root (ctx, type)) :
    KeepsOf root (referenceBody compile ctx definition arguments) fun stmts => ∀ f ∈ Stmt.ownCalls stmts,
      ∃ next, Passes (ctx, type) next ∧ IsNamed next f := by
  unfold referenceBody
  refine Keeps.lift_bind fun inside entered => Keeps.lift_bind fun body given => ?_
  rw [Definition.requireBody_eq_ok] at given
  split
  · rename_i plain
    have next : Passes (ctx, type) (inside, body) :=
      .body found leads entered given (List.isEmpty_iff.1 plain)
    refine (compiled inside body (reached.tail (.inl next))).bind fun name named => .pure fun f own => ?_
    rw [Stmt.ownCalls_result, Expr.ownCalls_callOn, List.mem_singleton] at own
    exact ⟨_, next, own ▸ named⟩
  · rename_i derived
    refine Keeps.lift_bind fun shape merged => ?_
    refine (objectBody_of compiled fun member listed => ?_).mono fun stmts none f own => ?_
    · exact reached.tail (.inr (.inherited found leads entered (mt List.isEmpty_iff.2 derived) merged listed))
    · rw [none] at own
      cases own

theorem compileDescriptor_of {descriptor : Descriptor}
    (direct : ∀ whole index, descriptor ≠ .indexAccess whole index)
    (found : ctx.arena.lookup? type = some descriptor) (reached : Reaches root (ctx, type)) :
    KeepsOf root (compileDescriptor depth compile ctx type descriptor) (IsNamed (ctx, type)) := by
  have part {next : Context × TypeId} (step : Inspects (ctx, type) next) : Reaches root next :=
    reached.tail (.inr step)
  have quiet {stmts : List Stmt} (none : NoOwnCalls stmts) : ∀ f ∈ Stmt.ownCalls stmts,
      (∃ next, Passes (ctx, type) next ∧ IsNamed next f) ∨ ∃ keys, f = exactKeysName keys := by
    intro f own
    rw [none] at own
    cases own
  have single {e : Expr} (none : e.ownCalls = []) : NoOwnCalls [.result e] := by
    rw [NoOwnCalls, Stmt.ownCalls_result, none]
  unfold compileDescriptor
  split
  · rename_i leaf isLeaf
    have named : IsNamed (ctx, type) leaf.name := by
      refine ⟨1, ?_⟩
      simp only [Context.nameOf, typeNameWithin, Arena.lookup_eq_ok.2 found, bind, Except.bind]
      exact Descriptor.leaf?_name isLeaf ..
    exact ensure_of reached named (.pure (quiet (single (Descriptor.leaf?_ownCalls isLeaf))))
  · cases descriptor with
    | array element =>
      refine Keeps.lift_bind fun name named => ensure_of reached ⟨depth, named⟩ ?_
      exact (arrayBody_of compiled (part (.element found))).mono fun _ => quiet
    | tuple elements =>
      refine Keeps.lift_bind fun name named => ensure_of reached ⟨depth, named⟩ ?_
      refine (tupleCheck_of compiled fun element inside => part (.position found inside)).bind ?_
      exact fun e none => .pure (quiet (single none))
    | object shape =>
      refine Keeps.lift_bind fun name named => ensure_of reached ⟨depth, named⟩ ?_
      exact (objectBody_of compiled fun member inside => part (.member found inside)).mono fun _ => quiet
    | union members =>
      refine Keeps.lift_bind fun name named => ensure_of reached ⟨depth, named⟩ ?_
      refine (unionCheck_of compiled found reached).bind fun e own => .pure fun f inside => ?_
      rw [Stmt.ownCalls_result] at inside
      exact .inl (own f inside)
    | intersection members =>
      refine Keeps.lift_bind fun name named => ensure_of reached ⟨depth, named⟩ ?_
      refine (intersectionCheck_of compiled found reached).bind fun e own => .pure fun f inside => ?_
      rw [Stmt.ownCalls_result] at inside
      exact own f inside
    | reference target arguments =>
      refine Keeps.lift_bind fun definition leads => Keeps.lift_bind fun name named => ?_
      rw [Arena.target_eq_ok] at leads
      refine ensure_of reached ⟨depth, named⟩ ?_
      exact (referenceBody_of compiled found leads reached).mono fun _ own f inside => .inl (own f inside)
    | parameter id =>
      refine Keeps.lift_bind fun stands resolved => ?_
      have next : Passes (ctx, type) (stands.2, stands.1) := .parameter found resolved
      refine (compiled stands.2 stands.1 (reached.tail (.inl next))).mono fun name named => ?_
      exact named.of_parameter found resolved
    | indexAccess whole index => exact absurd rfl (direct whole index)
    | keyof operand =>
      refine Keeps.lift_bind fun name named => ensure_of reached ⟨depth, named⟩ ?_
      exact (keyofCheck_of operand).bind fun e none => .pure (quiet (single none))
    | _ => exact .throw _

end

/-! ## Whole compilations -/

section
variable {arena : Arena} {root goal next : Context × TypeId}

theorem Context.IsOver.passes (based : goal.1.IsOver arena) (step : Passes goal next) :
    next.1.IsOver arena := by
  cases step with
  | parameter _ stands => exact based.resolve stands
  | alternative => exact based
  | conjunct => exact based.withExact false
  | body found leads entered => exact based.enter found leads entered

theorem Context.IsOver.reaches (based : root.1.IsOver arena) (reached : Reaches root goal) :
    goal.1.IsOver arena := by
  induction reached with
  | refl => exact based
  | tail _ step ih =>
    rcases step with step | step
    · exact ih.passes step
    · cases step with
      | inherited found leads entered => exact ih.enter found leads entered
      | _ => exact ih

variable (based : root.1.IsOver arena)
  (direct : ∀ type whole index, arena.lookup? type ≠ some (.indexAccess whole index))
include based direct

/-- Compilation completes predicates of reached types only, and they hand their value on as the types
do. -/
theorem compileWithin_forwarding (depth : Nat) (ctx : Context) (type : TypeId)
    (reached : Reaches root (ctx, type)) :
    KeepsOf root (compileWithin depth ctx type) (IsNamed (ctx, type)) := by
  induction depth generalizing ctx type with
  | zero => exact .throw _
  | succ depth ih =>
    unfold compileWithin
    refine Keeps.lift_bind fun descriptor found => ?_
    rw [Arena.lookup_eq_ok] at found
    refine compileDescriptor_of ih (fun whole index is => ?_) found reached
    have same : ctx.arena = arena := (based.reaches reached).arena_eq
    exact direct type whole index (same ▸ is ▸ found)

end

/-- What is compiled for a root as its options ask. -/
def Context.rootGoal (arena : Arena) (options : CompileOptions) (type : TypeId) : Context × TypeId :=
  (Context.root arena options, if options.shortCircuit then .ofKeyword .any else type)

section
variable {arena : Arena} {options : CompileOptions} {type : TypeId}
  (direct : ∀ type whole index, arena.lookup? type ≠ some (.indexAccess whole index))
include direct

theorem compileRoot_forwarding :
    KeepsOf (rootGoal arena options type) ((Context.root arena options).compileRoot type)
      fun _ => True := by
  have based : (Context.root arena options).IsOver arena := isOver_root arena options
  unfold Context.compileRoot
  by_cases short : options.shortCircuit = true
  · have goal : rootGoal arena options type = (Context.root arena options, .ofKeyword .any) := by
      simp only [rootGoal, short, if_true]
    rw [goal, if_pos (show (Context.root arena options).options.shortCircuit = true from short)]
    exact (compileWithin_forwarding based direct _ _ _ .refl).mono fun _ _ => trivial
  · have goal : rootGoal arena options type = (Context.root arena options, type) := by
      simp only [rootGoal, short]
      rfl
    rw [goal, if_neg (show ¬ (Context.root arena options).options.shortCircuit = true from short)]
    refine (compileWithin_forwarding based direct _ _ _ .refl).bind fun name named => ?_
    split
    · exact optional_of .refl named
    · exact .pure trivial

end

end ShapeCheck
