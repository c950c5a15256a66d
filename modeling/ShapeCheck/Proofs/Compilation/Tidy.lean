import ShapeCheck.Compile.Basic
import ShapeCheck.Proofs.Compilation.Registry
import ShapeCheck.Proofs.Inlining.Places

set_option autoImplicit false

/-! # Compiled predicates are tidy

Compiled predicates call each other on places: on the value itself, on a member of it, on a position
of a tuple, or on the element that a loop is at. This is true of all types and options, so it is
proved once for each strategy and then for all types by induction on the depth.

Main fact: `compileWithin_tidy`.
-/

namespace ShapeCheck

/-! ## Tidy forms -/

namespace Expr

theorem isPlace_parameter : parameter.IsPlace := .var _

theorem isTidy_and {es : List Expr} : (and es).IsTidy ↔ ∀ e ∈ es, e.IsTidy := by
  rw [isTidy_iff]
  simp [IsTidyNode, operands]

theorem isTidy_or {es : List Expr} : (or es).IsTidy ↔ ∀ e ∈ es, e.IsTidy := by
  rw [isTidy_iff]
  simp [IsTidyNode, operands]

theorem isTidy_anyOf {es : List Expr} (h : ∀ e ∈ es, e.IsTidy) : (anyOf es).IsTidy := by
  unfold anyOf
  split
  · exact h _ (by simp)
  · exact isTidy_or.2 h

theorem isTidy_call (f : String) {a : Expr} (place : a.IsPlace) : (call f a).IsTidy := by
  rw [isTidy_iff]
  exact ⟨place, by simpa [operands] using place.isTidy⟩

theorem isTidy_callOn (f : String) : (callOn f).IsTidy := isTidy_call f isPlace_parameter

theorem isTidy_not {e : Expr} (h : e.IsTidy) : (not e).IsTidy := by
  rw [isTidy_iff]
  simpa [IsTidyNode, operands] using h

end Expr

namespace Stmt

/-- All expressions of the statements are tidy. -/
def AllTidy (stmts : List Stmt) : Prop := ∀ e ∈ exprsOfAll stmts, e.IsTidy

@[simp] theorem allTidy_nil : AllTidy [] := by simp [AllTidy, exprsOfAll]

@[simp] theorem allTidy_result {e : Expr} {rest : List Stmt} :
    AllTidy (.result e :: rest) ↔ e.IsTidy ∧ AllTidy rest := by
  simp [AllTidy, exprsOfAll, exprs]

@[simp] theorem allTidy_ifThen {e : Expr} {body rest : List Stmt} :
    AllTidy (.ifThen e body :: rest) ↔ e.IsTidy ∧ AllTidy body ∧ AllTidy rest := by
  simp [AllTidy, exprsOfAll, exprs, or_imp, forall_and]

@[simp] theorem allTidy_forIndex {x : String} {e : Expr} {body rest : List Stmt} :
    AllTidy (.forIndex x e body :: rest) ↔ e.IsTidy ∧ AllTidy body ∧ AllTidy rest := by
  simp [AllTidy, exprsOfAll, exprs, or_imp, forall_and]

@[simp] theorem allTidy_forKeys {x : String} {e : Expr} {body rest : List Stmt} :
    AllTidy (.forKeys x e body :: rest) ↔ e.IsTidy ∧ AllTidy body ∧ AllTidy rest := by
  simp [AllTidy, exprsOfAll, exprs, or_imp, forall_and]

theorem allTidy_append {stmts rest : List Stmt} (h : AllTidy stmts) (h' : AllTidy rest) :
    AllTidy (stmts ++ rest) := by
  induction stmts with
  | nil => exact h'
  | cons stmt stmts ih =>
    intro e inside
    rcases List.mem_append.1 (show e ∈ stmt.exprs ++ exprsOfAll (stmts ++ rest) from inside) with
      inside | inside
    · exact h e (List.mem_append_left _ inside)
    · exact ih (fun e' inside' => h e' (List.mem_append_right _ inside')) e inside

theorem allTidy_rejectUnless {e : Expr} {rest : List Stmt} (h : e.IsTidy) (h' : AllTidy rest) :
    AllTidy (rejectUnless e :: rest) := by
  simp only [rejectUnless, allTidy_ifThen, allTidy_result]
  exact ⟨Expr.isTidy_not h, ⟨by simp [Expr.IsTidy, Expr.nodes, Expr.IsTidyNode], allTidy_nil⟩, h'⟩

end Stmt

/-- The predicate has the parameter of compiled predicates, and its expressions are tidy. -/
structure Predicate.IsTidy (p : Predicate) : Prop where
  parameter : p.parameter = Expr.parameterName
  exprs : Stmt.AllTidy p.body

/-- Steps that complete tidy predicates only, and whose results satisfy a property. -/
abbrev KeepsTidy {α : Type} (m : Build α) (Q : α → Prop) : Prop :=
  Keeps (Registry.Holds Predicate.IsTidy) m Q

/-! ## Building -/

namespace Build

variable {name : String} {reason : Option Reason}

theorem ensure_tidy {body : Build (List Stmt)} (h : KeepsTidy body Stmt.AllTidy) :
    KeepsTidy (ensure name reason body) fun _ => True :=
  (ensure_keeps (h.mono fun _ tidy => ⟨rfl, tidy⟩)).mono fun _ _ => trivial

theorem ensureExpr_tidy {body : Build Expr} (h : KeepsTidy body Expr.IsTidy) :
    KeepsTidy (ensureExpr name reason body) fun _ => True :=
  ensure_tidy (h.bind fun _ tidy => .pure (Stmt.allTidy_result.2 ⟨tidy, Stmt.allTidy_nil⟩))

theorem optional_tidy (inner : String) : KeepsTidy (optional inner) fun _ => True := by
  refine ensureExpr_tidy (.pure (Expr.isTidy_or.2 ?_))
  refine List.forall_mem_cons.2 ⟨?_, List.forall_mem_singleton.2 (Expr.isTidy_callOn inner)⟩
  simp [Expr.IsTidy, Expr.nodes, Expr.IsTidyNode, Expr.parameter]

end Build

theorem Descriptor.leaf?_tidy {descriptor : Descriptor} {leaf : Leaf}
    (h : descriptor.leaf? = some leaf) : leaf.check.IsTidy := by
  cases descriptor with
  | keyword word =>
    cases word <;> cases h <;>
      simp [Leaf.constant, Leaf.tag, Leaf.nonPrimitive, Expr.typeOfIs, Expr.parameter, Expr.IsTidy,
        Expr.nodes, Expr.nodesOfAll, Expr.IsTidyNode]
  | stringLiteral | numberLiteral | booleanLiteral | buffer | view =>
    cases h
    simp [Leaf.constant, Leaf.ofView, Expr.parameter, Expr.IsTidy, Expr.nodes, Expr.nodesOfAll,
      Expr.IsTidyNode]
  | _ => cases h

/-! ## Loops -/

theorem isTidy_memberCall {binder : String} (h : binder ≠ Expr.parameterName) (name : String) :
    (Expr.call name (.index .parameter (.var binder))).IsTidy :=
  Expr.isTidy_call name (.element h Expr.isPlace_parameter)

theorem exactKeysLoop_tidy (keys : List String) {rest : List Stmt} (h : Stmt.AllTidy rest) :
    Stmt.AllTidy (exactKeysLoop keys :: rest) := by
  have test : (Expr.oneOf (.var Expr.keyName) keys).IsTidy := by
    simp [Expr.IsTidy, Expr.nodes, Expr.IsTidyNode]
  rw [exactKeysLoop, Stmt.allTidy_forKeys]
  exact ⟨Expr.isPlace_parameter.isTidy, Stmt.allTidy_rejectUnless test Stmt.allTidy_nil, h⟩

/-! ## Composite types -/

section
variable {depth : Nat} {compile : Context → TypeId → Build String}
  (compiled : ∀ ctx type, KeepsTidy (compile ctx type) fun _ => True) (ctx : Context)
include compiled

theorem compilePart_tidy (type : TypeId) (optional : Bool) :
    KeepsTidy (compilePart compile ctx type optional) fun _ => True := by
  unfold compilePart
  refine (compiled ctx type).bind fun name _ => ?_
  split
  · exact Build.optional_tidy name
  · exact .pure trivial

theorem arrayBody_tidy (element : TypeId) :
    KeepsTidy (arrayBody compile ctx element) Stmt.AllTidy := by
  unfold arrayBody
  refine (compiled ctx element).bind fun name _ => Keeps.get_bind fun r _ => ?_
  have isArray : (Expr.isArray .parameter).IsTidy := by
    simp [Expr.IsTidy, Expr.nodes, Expr.IsTidyNode, Expr.parameter]
  have items : Stmt.AllTidy [memberCheck name Expr.indexName] :=
    Stmt.allTidy_rejectUnless (isTidy_memberCall (by decide) name) Stmt.allTidy_nil
  split
  · exact .pure (by simpa using isArray)
  · refine .pure (Stmt.allTidy_rejectUnless isArray ?_)
    simp only [Stmt.allTidy_forIndex, Stmt.allTidy_result]
    exact ⟨Expr.isPlace_parameter.isTidy, items,
      by simp [Expr.IsTidy, Expr.nodes, Expr.IsTidyNode], Stmt.allTidy_nil⟩

theorem elementTests_tidy (elements : List TupleElement) (position : Nat) :
    KeepsTidy (elementTests compile ctx position elements) fun tests => ∀ e ∈ tests, e.IsTidy := by
  induction elements generalizing position with
  | nil => exact .pure (by simp)
  | cons element rest ih =>
    refine (compilePart_tidy compiled ctx element.type element.optional).bind fun name _ => ?_
    refine (ih (position + 1)).bind fun tests tidy => .pure ?_
    rw [List.forall_mem_cons]
    exact ⟨Expr.isTidy_call name (.position _ Expr.isPlace_parameter), tidy⟩

omit compiled in
theorem lengthTests_tidy (elements : List TupleElement) :
    ∀ e ∈ Expr.isArray .parameter :: lengthTests elements, e.IsTidy := by
  unfold lengthTests
  dsimp only
  split <;> simp [Expr.IsTidy, Expr.nodes, Expr.IsTidyNode, Expr.parameter]

theorem tupleCheck_tidy (elements : List TupleElement) :
    KeepsTidy (tupleCheck compile ctx elements) Expr.IsTidy := by
  refine (elementTests_tidy compiled ctx elements 0).bind fun tests tidy => .pure ?_
  rw [Expr.isTidy_and]
  intro e inside
  rcases List.mem_append.1 inside with inside | inside
  · exact lengthTests_tidy elements e inside
  · exact tidy e inside

theorem propertyTest?_tidy (property : Property) :
    KeepsTidy (propertyTest? compile ctx property) fun test => ∀ e, test = some e → e.IsTidy := by
  unfold propertyTest?
  split
  · exact .pure (by simp)
  split
  · split
    · exact .pure (by simp)
    · exact .throw _
  split
  · exact .throw _
  · refine (compiled ctx _).bind fun name _ => .pure ?_
    rintro e ⟨⟩
    have check : (Expr.call name (.member .parameter property.name)).IsTidy :=
      Expr.isTidy_call name (.member _ Expr.isPlace_parameter)
    split
    · rw [Expr.isTidy_or]
      refine List.forall_mem_cons.2 ⟨?_, List.forall_mem_singleton.2 check⟩
      simp [Expr.IsTidy, Expr.nodes, Expr.IsTidyNode, Expr.parameter]
    · rw [Expr.isTidy_and]
      refine List.forall_mem_cons.2 ⟨?_, List.forall_mem_singleton.2 check⟩
      simp [Expr.hasName, Expr.IsTidy, Expr.nodes, Expr.IsTidyNode, Expr.parameter]

theorem keyLoop_tidy (shape : ObjectShape) :
    KeepsTidy (keyLoop compile ctx shape) Stmt.AllTidy := by
  unfold keyLoop
  split
  · refine (compiled ctx _).bind fun name _ => Keeps.get_bind fun r _ => .pure ?_
    split
    · exact Stmt.allTidy_nil
    · rw [Stmt.allTidy_forKeys]
      exact ⟨Expr.isPlace_parameter.isTidy,
        Stmt.allTidy_rejectUnless (isTidy_memberCall (by decide) name) Stmt.allTidy_nil,
        Stmt.allTidy_nil⟩
  · refine .pure ?_
    split
    · exact exactKeysLoop_tidy shape.keys Stmt.allTidy_nil
    · exact Stmt.allTidy_nil

theorem objectBody_tidy (shape : ObjectShape) :
    KeepsTidy (objectBody compile ctx shape) Stmt.AllTidy := by
  unfold objectBody
  refine (Keeps.filterMapM fun property _ => propertyTest?_tidy compiled ctx property).bind ?_
  rintro tests ⟨found, related, rfl⟩
  have all : (Expr.and (Expr.plainObjectTests .parameter ++ found.filterMap id)).IsTidy := by
    rw [Expr.isTidy_and]
    intro e inside
    rcases List.mem_append.1 inside with inside | inside
    · have plain : ∀ e ∈ Expr.plainObjectTests .parameter, e.IsTidy := by
        simp [Expr.plainObjectTests, Expr.typeOfIs, Expr.IsTidy, Expr.nodes, Expr.IsTidyNode,
          Expr.parameter]
      exact plain e inside
    · obtain ⟨test, listed, rfl⟩ := List.mem_filterMap.1 inside
      obtain ⟨property, _, tidy⟩ := exists_left_of_forall₂ related listed
      exact tidy e rfl
  refine (keyLoop_tidy compiled ctx shape).bind fun loops tidy => .pure ?_
  split
  · exact Stmt.allTidy_result.2 ⟨all, Stmt.allTidy_nil⟩
  · refine Stmt.allTidy_rejectUnless all (Stmt.allTidy_append tidy ?_)
    simp [Expr.IsTidy, Expr.nodes, Expr.IsTidyNode]

theorem memberCalls_tidy (members : List TypeId) :
    KeepsTidy (memberCalls compile ctx members) fun calls => ∀ e ∈ calls, e.IsTidy := by
  refine (Keeps.mapM fun type _ => compiled ctx type).bind fun names _ => .pure ?_
  intro e inside
  obtain ⟨name, _, rfl⟩ := List.mem_map.1 inside
  exact Expr.isTidy_callOn name

theorem unionCheck_tidy (members : List TypeId) :
    KeepsTidy (unionCheck compile ctx members) Expr.IsTidy := by
  unfold unionCheck
  split
  · exact .pure (by simp [Expr.IsTidy, Expr.nodes, Expr.IsTidyNode])
  · refine (memberCalls_tidy compiled ctx members).bind fun calls tidy => .pure ?_
    exact Expr.isTidy_anyOf tidy

omit compiled in
theorem exactKeysPredicate_tidy (keys : List String) :
    KeepsTidy (exactKeysPredicate keys) fun _ => True := by
  refine Build.ensure_tidy (.pure ?_)
  have always : Stmt.AllTidy [.result (.bool true)] := by
    simp [Expr.IsTidy, Expr.nodes, Expr.IsTidyNode]
  rw [Stmt.allTidy_ifThen]
  refine ⟨?_, always, exactKeysLoop_tidy keys always⟩
  simp [Expr.typeOfIs, Expr.IsTidy, Expr.nodes, Expr.nodesOfAll, Expr.IsTidyNode, Expr.parameter]

theorem intersectionCheck_tidy (type : TypeId) (members : List TypeId) :
    KeepsTidy (intersectionCheck depth compile ctx type members) Expr.IsTidy := by
  unfold intersectionCheck
  refine (memberCalls_tidy compiled _ members).bind fun calls tidy => ?_
  split
  · refine Keeps.lift_bind fun keys? _ => ?_
    split
    · refine (exactKeysPredicate_tidy _).bind fun name _ => .pure ?_
      rw [Expr.isTidy_and, List.forall_mem_append]
      exact ⟨tidy, List.forall_mem_singleton.2 (Expr.isTidy_callOn name)⟩
    · exact .pure (Expr.isTidy_and.2 tidy)
  · exact .pure (Expr.isTidy_and.2 tidy)

omit compiled in
theorem keyofCheck_tidy (operand : TypeId) :
    KeepsTidy (keyofCheck depth ctx operand) Expr.IsTidy := by
  unfold keyofCheck
  refine Keeps.lift_bind fun keys? _ => ?_
  split
  · refine .pure (Expr.isTidy_or.2 fun e inside => ?_)
    obtain ⟨key, _, rfl⟩ := List.mem_map.1 inside
    simp [Expr.IsTidy, Expr.nodes, Expr.IsTidyNode, Expr.parameter]
  · exact .pure (by
      simp [Expr.typeOfIs, Expr.IsTidy, Expr.nodes, Expr.nodesOfAll,
        Expr.IsTidyNode, Expr.parameter])

theorem referenceBody_tidy (definition : Definition) (arguments : List TypeId) :
    KeepsTidy (referenceBody compile ctx definition arguments) Stmt.AllTidy := by
  unfold referenceBody
  refine Keeps.lift_bind fun inside _ => Keeps.lift_bind fun body _ => ?_
  split
  · refine (compiled inside body).bind fun name _ => .pure ?_
    exact Stmt.allTidy_result.2 ⟨Expr.isTidy_callOn name, Stmt.allTidy_nil⟩
  · exact Keeps.lift_bind fun shape _ => objectBody_tidy compiled inside shape

/-! ## Indexed access -/

omit compiled in
theorem firstNonempty_tidy {find : TypeId → Build (List String)}
    (found : ∀ type, KeepsTidy (find type) fun _ => True) (types : List TypeId) :
    KeepsTidy (firstNonempty find types) fun _ => True := by
  induction types with
  | nil => exact .pure trivial
  | cons type rest ih =>
    refine (found type).bind fun names _ => ?_
    split
    · exact ih
    · exact .pure trivial

theorem objectMembers_tidy (shape : ObjectShape) (key : IndexKey) :
    KeepsTidy (objectMembers compile ctx shape key) fun _ => True := by
  unfold objectMembers
  dsimp only
  split
  · split
    · exact .pure trivial
    split
    · exact .throw _
    · exact (compilePart_tidy compiled ctx _ _).bind fun _ _ => .pure trivial
  · split
    · exact (compiled ctx _).bind fun _ _ => .pure trivial
    · exact .pure trivial

theorem arrayMembers_tidy (element : TypeId) (key : IndexKey) :
    KeepsTidy (arrayMembers compile ctx element key) fun _ => True := by
  unfold arrayMembers
  split
  · exact (compiled ctx element).bind fun _ _ => .pure trivial
  · exact (compiled ctx element).bind fun _ _ => .pure trivial
  · exact (compiled ctx _).bind fun _ _ => .pure trivial
  · exact .pure trivial

theorem tupleMembers_tidy (elements : List TupleElement) (key : IndexKey) :
    KeepsTidy (tupleMembers compile ctx elements key) fun _ => True := by
  unfold tupleMembers
  split
  · split
    · exact (compilePart_tidy compiled ctx _ _).bind fun _ _ => .pure trivial
    · exact .pure trivial
  · exact (Keeps.mapM fun element _ => compiled ctx element.type).bind fun _ _ => .pure trivial
  · exact (compiled ctx _).bind fun _ _ => .pure trivial
  · exact .pure trivial

theorem membersWithin_tidy (key : IndexKey) (steps : Nat) (type : TypeId) :
    KeepsTidy (membersWithin compile key steps ctx type) fun _ => True := by
  induction steps generalizing ctx type with
  | zero => exact .throw _
  | succ steps ih =>
    unfold membersWithin
    refine Keeps.lift_bind fun descriptor _ => ?_
    split
    · exact objectMembers_tidy compiled ctx _ key
    · exact arrayMembers_tidy compiled ctx _ key
    · exact tupleMembers_tidy compiled ctx _ key
    · refine Keeps.lift_bind fun definition _ => Keeps.lift_bind fun inside _ => ?_
      exact Keeps.lift_bind fun body _ => firstNonempty_tidy (ih inside) _
    · exact Keeps.lift_bind fun target _ => ih target.2 target.1
    · exact (Keeps.mapM fun member _ => ih ctx member).bind fun _ _ => .pure trivial
    · exact firstNonempty_tidy (ih ctx) _
    · exact .pure trivial

theorem compileIndexAccess_tidy (type whole index : TypeId) :
    KeepsTidy (compileIndexAccess depth compile ctx type whole index) fun _ => True := by
  have selected (key : IndexKey) :
      KeepsTidy (selectedMembers depth compile ctx type whole key) fun _ => True := by
    unfold selectedMembers
    refine (membersWithin_tidy compiled ctx key _ whole).bind fun found _ => ?_
    split
    · exact Keeps.lift_bind fun name _ => .throw _
    · exact .pure trivial
  unfold compileIndexAccess
  refine Keeps.lift_bind fun keys _ => (Keeps.mapM fun key _ => selected key).bind fun found _ => ?_
  split
  · exact .throw _
  · exact .pure trivial
  · refine Keeps.lift_bind fun name _ => Build.ensureExpr_tidy (.pure (Expr.isTidy_or.2 ?_))
    intro e inside
    obtain ⟨name, _, rfl⟩ := List.mem_map.1 inside
    exact Expr.isTidy_callOn name

/-! ## All types -/

theorem compileDescriptor_tidy (type : TypeId) (descriptor : Descriptor) :
    KeepsTidy (compileDescriptor depth compile ctx type descriptor) fun _ => True := by
  unfold compileDescriptor
  split
  · rename_i leaf isLeaf
    exact Build.ensureExpr_tidy (.pure (Descriptor.leaf?_tidy isLeaf))
  split
  · exact Keeps.lift_bind fun name _ => Build.ensure_tidy (arrayBody_tidy compiled ctx _)
  · exact Keeps.lift_bind fun name _ => Build.ensureExpr_tidy (tupleCheck_tidy compiled ctx _)
  · exact Keeps.lift_bind fun name _ => Build.ensure_tidy (objectBody_tidy compiled ctx _)
  · exact Keeps.lift_bind fun name _ => Build.ensureExpr_tidy (unionCheck_tidy compiled ctx _)
  · exact Keeps.lift_bind fun name _ =>
      Build.ensureExpr_tidy (intersectionCheck_tidy compiled ctx type _)
  · exact Keeps.lift_bind fun definition _ => Keeps.lift_bind fun name _ =>
      Build.ensure_tidy (referenceBody_tidy compiled ctx definition _)
  · exact Keeps.lift_bind fun target _ => compiled target.2 target.1
  · exact compileIndexAccess_tidy compiled ctx type _ _
  · exact Keeps.lift_bind fun name _ => Build.ensureExpr_tidy (keyofCheck_tidy ctx _)
  · exact .throw _

end

/-- Compilation completes tidy predicates only. -/
theorem compileWithin_tidy (depth : Nat) (ctx : Context) (type : TypeId) :
    KeepsTidy (compileWithin depth ctx type) fun _ => True := by
  induction depth generalizing ctx type with
  | zero => exact .throw _
  | succ depth ih =>
    unfold compileWithin
    exact Keeps.lift_bind fun descriptor _ => compileDescriptor_tidy ih ctx type descriptor

theorem compileRoot_tidy (ctx : Context) (type : TypeId) :
    KeepsTidy (ctx.compileRoot type) fun _ => True := by
  unfold Context.compileRoot
  split
  · exact compileWithin_tidy _ ctx _
  · refine (compileWithin_tidy _ ctx type).bind fun name _ => ?_
    split
    · exact Build.optional_tidy name
    · exact .pure trivial

end ShapeCheck
