import Mathlib
import ShapeCheck.Compile.Basic
import ShapeCheck.Proofs.Compilation.Registry
import ShapeCheck.Proofs.Meaning.Strategies
import ShapeCheck.Proofs.Naming.Quotation
import ShapeCheck.Proofs.Reports.Visits

set_option autoImplicit false

/-! # Compiled predicates report honestly

The body of a compiled predicate looks at a part of the value only after the tests in front have found
that it is there, and then in a step that a diagnosis can follow. So a visit of the body keeps a
diagnosis honest. The one call on what may be missing is that of an optional position of a tuple, and
it accepts at once; for this optional positions have to be last.

Main fact: `compileRoot_honest`.
-/

namespace ShapeCheck

/-! ## Honest predicates -/

/-- Whenever the expression is evaluated in a visit, diagnoses stay honest. -/
def Expr.Reports (arena : Arena) (e : Expr) : Prop :=
  ∀ (visit : Visit arena) steps, visit.KeepsExpr steps visit.frame e

/-- Whenever these statements run as the body of the predicate of this name, diagnoses stay honest. -/
def Stmt.Reports (arena : Arena) (name : String) (stmts : List Stmt) : Prop :=
  ∀ visit : Visit arena, visit.Runs name stmts → ∀ steps, Keeps (visit.Honest steps)
    (execAll Diagnosis.observe visit.call visit.frame stmts) fun _ => True

/-- The predicate reports honestly: its body does, its reason is what the body asks, and the name of an
optional part stands for a predicate that accepts what is not there. -/
structure Predicate.IsHonest (arena : Arena) (p : Predicate) : Prop where
  parameter : p.parameter = Expr.parameterName
  reports : Stmt.Reports arena p.name p.body
  reason : ∀ reason, p.reason = some reason → ∀ (call : String → Located → Run Diagnosis Bool) x,
    Stmt.Decide Diagnosis.observe call (Frame.ofValue x) p.body (reason.holds x.value = true)
  optional : ∀ inner, arena.IsSpelling inner → p.name = optionalName inner →
    p.body = [.result (.or [.strictEq .parameter .undefined, .callOn inner])]

/-- Steps that complete honest predicates only, and whose results satisfy a property. -/
abbrev KeepsHonest {α : Type} (arena : Arena) (m : Build α) (Q : α → Prop) : Prop :=
  Keeps (Registry.Holds (Predicate.IsHonest arena)) m Q

/-- No optional part has this name. -/
def Arena.IsApart (arena : Arena) (name : String) : Prop :=
  ∀ inner, arena.IsSpelling inner → name ≠ optionalName inner

variable {arena : Arena}

/-! ## Quiet bodies -/

theorem Expr.IsQuiet.reports {e : Expr} (quiet : e.IsQuiet) : e.Reports arena :=
  fun visit _ => quiet.keeps visit.frame

theorem Stmt.reports_result {e : Expr} {name : String} (h : e.Reports arena) :
    Stmt.Reports arena name [.result e] :=
  fun visit _ steps => keeps_result (h visit steps)

theorem Expr.reports_callOn (name : String) : (Expr.callOn name).Reports arena :=
  fun visit _ => visit.keeps_callOn name

theorem Expr.reports_and {es : List Expr} (h : ∀ e ∈ es, e.Reports arena) :
    (Expr.and es).Reports arena :=
  fun visit steps => keeps_and (keeps_evalAnd fun e inside => h e inside visit steps)

theorem Expr.reports_or {es : List Expr} (h : ∀ e ∈ es, e.Reports arena) :
    (Expr.or es).Reports arena :=
  fun visit steps => keeps_or (keeps_evalOr fun e inside => h e inside visit steps)

theorem Expr.reports_anyOf {es : List Expr} (h : ∀ e ∈ es, e.Reports arena) :
    (Expr.anyOf es).Reports arena := by
  unfold anyOf
  split
  · exact h _ (by simp)
  · exact reports_or h

/-! ## Leaves -/

theorem Descriptor.leaf?_quiet {descriptor : Descriptor} {leaf : Leaf}
    (h : descriptor.leaf? = some leaf) : leaf.check.IsQuiet := by
  cases descriptor with
  | keyword word =>
    cases word <;> cases h <;>
      simp [Leaf.constant, Leaf.tag, Leaf.nonPrimitive, Expr.typeOfIs, Expr.parameter, Expr.IsQuiet,
        Expr.nodes, Expr.nodesOfAll, Expr.isQuietNode]
  | stringLiteral | numberLiteral | booleanLiteral | buffer | view =>
    cases h
    simp [Leaf.constant, Leaf.ofView, Expr.parameter, Expr.IsQuiet, Expr.nodes, Expr.nodesOfAll,
      Expr.isQuietNode]
  | _ => cases h

/-- The reason of a leaf asks what the equation of its type says. -/
theorem Descriptor.holds_iff_admits {descriptor : Descriptor} {leaf : Leaf} {reason : Reason}
    (h : descriptor.leaf? = some leaf) (given : leaf.reason = some reason)
    (A : TypeId → Bool → Value → Prop) (exact : Bool) (type : TypeId) (v : Value) :
    descriptor.Admits A exact v arena type ↔ reason.holds v = true := by
  cases descriptor with
  | keyword word =>
    cases word <;> cases h <;> cases given <;> cases v <;>
      simp [Descriptor.Admits, Keyword.Admits, Reason.holds, Value.typeOf, Value.IsObject]
  | stringLiteral | numberLiteral | booleanLiteral =>
    cases h
    cases given
    cases v <;> simp [Descriptor.Admits, Reason.holds]
  | buffer | view =>
    cases h
    cases given
  | _ => cases h

/-! ## Building -/

namespace Build

variable {name : String}

theorem ensure_honest {body : Build (List Stmt)} (apart : arena.IsApart name)
    (h : KeepsHonest arena body (Stmt.Reports arena name)) :
    KeepsHonest arena (ensure name none body) (· = name) :=
  ensure_keeps (h.mono fun _ reports =>
    ⟨rfl, reports, nofun, fun inner spelled same => absurd same (apart inner spelled)⟩)

theorem ensureExpr_leaf_honest {descriptor : Descriptor} {leaf : Leaf}
    (h : descriptor.leaf? = some leaf) :
    KeepsHonest arena (ensureExpr leaf.name leaf.reason (return leaf.check)) (· = leaf.name) := by
  refine ensure_keeps ?_
  rw [pure_bind]
  refine .pure ⟨rfl, Stmt.reports_result (Descriptor.leaf?_quiet h).reports, ?_, ?_⟩
  · intro reason given call x
    refine (Stmt.decide_result (Descriptor.leaf?_tests h (fun _ _ _ => True) false arena ⟨0⟩)).congr ?_
    exact Descriptor.holds_iff_admits h given _ _ _ _
  · exact fun inner _ same => absurd same (Arena.leaf_ne_optionalName h)

theorem optional_honest (inner : String) :
    KeepsHonest arena (optional inner) (· = optionalName inner) := by
  refine ensure_keeps ?_
  rw [pure_bind]
  refine .pure ⟨rfl, ?_, nofun, ?_⟩
  · refine Stmt.reports_result (Expr.reports_or ?_)
    have quiet : (Expr.strictEq .parameter .undefined).IsQuiet := by
      simp [Expr.IsQuiet, Expr.nodes, Expr.isQuietNode, Expr.parameter]
    exact List.forall_mem_cons.2
      ⟨quiet.reports, List.forall_mem_singleton.2 (Expr.reports_callOn inner)⟩
  · rintro inner' - same
    rw [optionalName_injective same]
    rfl

end Build

/-! ## Contexts -/

namespace Context

variable {ctx inside : Context}

theorem arena_of_enter {definition : Definition} {arguments : List TypeId}
    (h : ctx.enter definition arguments = .ok inside) : inside.arena = ctx.arena := by
  obtain ⟨_, -, h⟩ := bind_eq_ok.1 h
  rw [← Except.ok.inj h]
  rfl

theorem arena_of_resolve {id : ParameterId} {target : TypeId × Context}
    (h : ctx.resolve id = .ok target) : target.2.arena = ctx.arena := by
  obtain ⟨_, -, h⟩ := bind_eq_ok.1 h
  rw [← Except.ok.inj h]
  rfl

end Context

/-- A predicate may have the canonical name of a type. -/
theorem Build.ensure_nameOf {ctx : Context} {depth : Nat} {type : TypeId} {name : String}
    {body : Build (List Stmt)} (here : ctx.arena = arena) (made : ctx.nameOf depth type = .ok name)
    (h : KeepsHonest arena body (Stmt.Reports arena name)) :
    KeepsHonest arena (ensure name none body) arena.IsSpelling := by
  subst here
  refine (ensure_honest (fun inner => Arena.ne_optionalName_of_typeNameWithin made) h).mono ?_
  rintro name rfl
  exact Arena.isSpelling_of_typeNameWithin made

theorem Build.ensureExpr_nameOf {ctx : Context} {depth : Nat} {type : TypeId} {name : String}
    {body : Build Expr} (here : ctx.arena = arena) (made : ctx.nameOf depth type = .ok name)
    (h : KeepsHonest arena body (Expr.Reports arena)) :
    KeepsHonest arena (ensureExpr name none body) arena.IsSpelling :=
  ensure_nameOf here made (h.bind fun _ reports => .pure (Stmt.reports_result reports))

/-! ## Composite types -/

/-- In a tuple the optional positions are last. -/
def Descriptor.optionalLast : Descriptor → Bool
  | .tuple elements => decide (elements.Pairwise fun a b => a.optional = true → b.optional = true)
  | _ => true

/-- In all tuples of the arena the optional positions are last. -/
def Arena.OptionalLast (arena : Arena) : Prop :=
  ∀ descriptor ∈ arena.descriptors.toList, descriptor.optionalLast = true

instance : DecidablePred Arena.OptionalLast := fun arena =>
  inferInstanceAs (Decidable (∀ descriptor ∈ arena.descriptors.toList, _))

/-- A position that is not optional is before the first that is. -/
theorem TupleElement.lt_minLength {elements : List TupleElement}
    (last : (Descriptor.tuple elements).optionalLast = true) {i : Nat} {element : TupleElement}
    (listed : elements[i]? = some element) (required : element.optional = false) :
    i < minLength elements := by
  obtain ⟨inside, rfl⟩ := List.getElem?_eq_some_iff.1 listed
  by_contra above
  have first : minLength elements ≤ i := Nat.not_lt.1 above
  have short : minLength elements < elements.length := first.trans_lt inside
  have optional : elements[minLength elements].optional = true := List.findIdx_getElem (w := short)
  obtain same | before := Nat.eq_or_lt_of_le first
  · simp only [same] at optional
    rw [required] at optional
    cases optional
  · have later := List.pairwise_iff_getElem.1 (of_decide_eq_true last) _ _ short inside before optional
    rw [required] at later
    cases later

section
variable {depth : Nat} {compile : Context → TypeId → Build String}
  (compiled : ∀ ctx type, ctx.arena = arena → KeepsHonest arena (compile ctx type) arena.IsSpelling)
  {ctx : Context} (here : ctx.arena = arena)
include compiled here

/-- The name of a part is a spelling, and that of an optional part is made from another one. -/
theorem compilePart_honest (type : TypeId) (optional : Bool) :
    KeepsHonest arena (compilePart compile ctx type optional) fun name => arena.IsSpelling name ∧
      (optional = true → ∃ inner, arena.IsSpelling inner ∧ name = optionalName inner) := by
  unfold compilePart
  refine (compiled ctx type here).bind fun inner spelled => ?_
  split
  · refine (Build.optional_honest inner).mono ?_
    rintro name rfl
    exact ⟨Arena.isSpelling_optionalName spelled, fun _ => ⟨inner, spelled, rfl⟩⟩
  · rename_i required
    exact .pure ⟨spelled, fun optional => absurd optional required⟩

theorem arrayBody_honest (element : TypeId) (name : String) :
    KeepsHonest arena (arrayBody compile ctx element) (Stmt.Reports arena name) := by
  unfold arrayBody
  refine (compiled ctx element here).bind fun item _ => Keeps.get_bind fun r _ => ?_
  have quiet : (Expr.isArray .parameter).IsQuiet := by
    simp [Expr.IsQuiet, Expr.nodes, Expr.isQuietNode, Expr.parameter]
  have always : (Expr.bool true).IsQuiet := by simp [Expr.IsQuiet, Expr.nodes, Expr.isQuietNode]
  split
  · exact .pure (Stmt.reports_result quiet.reports)
  · refine .pure fun visit _ steps => ?_
    have test : Keeps (visit.Honest steps) ((Expr.isArray .parameter).eval Diagnosis.observe visit.call
        visit.frame) fun v => v.value.isTruthy = true → visit.part.value.isArray = true :=
      ((quiet.keeps visit.frame).also (Expr.tests_isArray Expr.reads_parameter)).mono
        fun _ told => told.2.1
    refine Stmt.keeps_cons (Stmt.keeps_rejectUnless test) fun isArray => ?_
    obtain ⟨items, array⟩ : ∃ items, visit.part.value = .array items := by
      cases value : visit.part.value <;> simp_all [Value.isArray]
    refine Stmt.keeps_cons (P := True) ((visit.keeps_items array item).mono fun _ _ _ => trivial)
      fun _ => ?_
    exact Stmt.keeps_result (always.keeps visit.frame)

/-- The tests of positions are honest on arrays that have all positions that are not optional. -/
theorem elementTests_honest (elements : List TupleElement) (position : Nat) :
    KeepsHonest arena (elementTests compile ctx position elements) fun tests =>
      ∀ (visit : Visit arena) items, visit.part.value = .array items →
        (∀ (i : Nat) (element : TupleElement), elements[i]? = some element →
          element.optional = false → position + i < items.length) →
        ∀ steps, ∀ e ∈ tests, visit.KeepsExpr steps visit.frame e := by
  induction elements generalizing position with
  | nil => exact .pure (by simp)
  | cons element rest ih =>
    refine (compilePart_honest compiled here element.type element.optional).bind ?_
    rintro name ⟨-, optional⟩
    refine (ih (position + 1)).bind fun tests below => .pure fun visit items array there steps => ?_
    rw [List.forall_mem_cons]
    constructor
    · obtain inside | outside := Nat.lt_or_ge position items.length
      · exact visit.keeps_call_position array inside
      · have isOptional : element.optional = true := by
          by_contra required
          have inside := there 0 element rfl (by simpa using required)
          omega
        obtain ⟨inner, part, rfl⟩ := optional isOptional
        exact visit.keeps_call_outside array part outside
    · refine below visit items array (fun i other listed required => ?_) steps
      have inside := there (i + 1) other listed required
      omega

theorem tupleCheck_honest {elements : List TupleElement}
    (last : (Descriptor.tuple elements).optionalLast = true) :
    KeepsHonest arena (tupleCheck compile ctx elements) (Expr.Reports arena) := by
  refine (elementTests_honest compiled here elements 0).bind fun tests below =>
    .pure fun visit steps => Expr.keeps_and ?_
  have quiet : ∀ e ∈ Expr.isArray .parameter :: lengthTests elements, e.IsQuiet := by
    unfold lengthTests
    dsimp only
    split <;> simp [Expr.IsQuiet, Expr.nodes, Expr.isQuietNode, Expr.parameter]
  have isArray : (Expr.isArray .parameter).Tests Diagnosis.observe visit.call visit.frame
      (visit.part.value.isArray = true) := Expr.tests_isArray Expr.reads_parameter
  refine (Expr.keeps_evalAnd_append
    (Expr.keeps_evalAnd fun e inside => (quiet e inside).keeps visit.frame)
    (Expr.allTest_cons_of isArray fun isArray => tests_lengthTests elements isArray) ?_).mono
      fun _ _ => trivial
  rintro ⟨isArray, least, -⟩
  obtain ⟨items, array⟩ : ∃ items, visit.part.value = .array items := by
    cases value : visit.part.value <;> simp_all [Value.isArray]
  have count : visit.part.value.count = items.length := by rw [array]; rfl
  have enough : TupleElement.minLength elements ≤ items.length := by
    rw [count, Double.le_ofNat (.inr (visit.length_lt array))] at least
    exact least
  refine Expr.keeps_evalAnd (below visit items array (fun i element listed required => ?_) steps)
  have before := TupleElement.lt_minLength last listed required
  omega

/-! ## Objects -/

/-- The test of a member is honest on objects. -/
theorem propertyTest?_honest (property : Property) :
    KeepsHonest arena (propertyTest? compile ctx property) fun test =>
      ∀ e, test = some e → ∀ (visit : Visit arena) entries, visit.part.value = .object entries →
        ∀ steps, visit.KeepsExpr steps visit.frame e := by
  unfold propertyTest?
  split
  · exact .pure nofun
  split
  · split
    · exact .pure nofun
    · exact .throw _
  split
  · exact .throw _
  · refine (compiled ctx _ here).bind fun name _ => .pure ?_
    rintro e ⟨⟩ visit entries object steps
    have member : Expr.Reads Diagnosis.observe visit.call visit.frame
        (.member .parameter property.name) (visit.part.get property.name) :=
      Expr.reads_member property.name Expr.reads_parameter
    have check (present : visit.part.value.hasKey property.name = true) :
        visit.KeepsExpr steps visit.frame (.call name (.member .parameter property.name)) :=
      visit.keeps_call_member object present
    split
    · have quiet : (Expr.strictEq (.member .parameter property.name) .undefined).IsQuiet := by
        simp [Expr.IsQuiet, Expr.nodes, Expr.isQuietNode, Expr.parameter]
      exact Expr.keeps_or (Expr.keeps_evalOr_pair (quiet.keeps visit.frame)
        (Expr.tests_undefined member)
        fun some => check (Located.hasKey_of_get_ne_undefined object some))
    · have quiet : (Expr.hasName property.name .parameter).IsQuiet := by
        simp [Expr.hasName, Expr.IsQuiet, Expr.nodes, Expr.isQuietNode, Expr.parameter]
      exact Expr.keeps_and (Expr.keeps_evalAnd_pair (quiet.keeps visit.frame)
        (Expr.tests_hasName property.name Expr.reads_parameter) check)

/-- There is no loop, one over the members, or one over the keys that are superfluous. -/
theorem keyLoop_honest (shape : ObjectShape) :
    KeepsHonest arena (keyLoop compile ctx shape) fun loops =>
      loops = [] ∨
        (∃ name, loops = [.forKeys Expr.keyName .parameter [memberCheck name Expr.keyName]]) ∨
          loops = [exactKeysLoop shape.keys] := by
  unfold keyLoop
  split
  · refine (compiled ctx _ here).bind fun name _ => Keeps.get_bind fun r _ => .pure ?_
    split
    · exact .inl rfl
    · exact .inr (.inl ⟨name, rfl⟩)
  · refine .pure ?_
    split
    · exact .inr (.inr rfl)
    · exact .inl rfl

theorem objectBody_honest (shape : ObjectShape) (name : String) :
    KeepsHonest arena (objectBody compile ctx shape) (Stmt.Reports arena name) := by
  unfold objectBody
  refine (Keeps.filterMapM fun property _ => propertyTest?_honest compiled here property).bind ?_
  rintro tests ⟨found, related, rfl⟩
  have plain : ∀ e ∈ Expr.plainObjectTests .parameter, e.IsQuiet := by
    simp [Expr.plainObjectTests, Expr.typeOfIs, Expr.IsQuiet, Expr.nodes, Expr.isQuietNode,
      Expr.parameter]
  have always : (Expr.bool true).IsQuiet := by simp [Expr.IsQuiet, Expr.nodes, Expr.isQuietNode]
  have all (visit : Visit arena) (steps : List Bool) : Keeps (visit.Honest steps)
      ((Expr.and (Expr.plainObjectTests .parameter ++ found.filterMap id)).eval Diagnosis.observe
        visit.call visit.frame)
      fun v => v.value.isTruthy = true → ∃ entries, visit.part.value = .object entries := by
    refine (Expr.keeps_and_of (Expr.keeps_evalAnd_append
      (Expr.keeps_evalAnd fun e inside => (plain e inside).keeps visit.frame)
      Expr.tests_plainObject ?_)).mono
        fun v told truthy => visit.data.exists_entries (told truthy).1 (told truthy).2
    rintro ⟨isObject, notArray⟩
    obtain ⟨entries, object⟩ := visit.data.exists_entries isObject notArray
    refine Expr.keeps_evalAnd fun e inside => ?_
    obtain ⟨test, listed, rfl⟩ := List.mem_filterMap.1 inside
    obtain ⟨property, _, honest⟩ := exists_left_of_forall₂ related listed
    exact honest e rfl visit entries object steps
  refine (keyLoop_honest compiled here shape).bind ?_
  rintro loops (rfl | ⟨part, rfl⟩ | rfl)
  · exact .pure (Stmt.reports_result fun visit steps => (all visit steps).mono fun _ _ => trivial)
  · refine .pure fun visit _ steps => ?_
    refine Stmt.keeps_cons (Stmt.keeps_rejectUnless (all visit steps)) ?_
    rintro ⟨entries, object⟩
    refine Stmt.keeps_cons (P := True) ((visit.keeps_entries object part).mono fun _ _ _ => trivial)
      fun _ => ?_
    exact Stmt.keeps_result (always.keeps visit.frame)
  · exact .pure fun visit runs steps => visit.keeps_exactKeys runs
      ((Stmt.keeps_rejectUnless (all visit steps)).mono fun _ _ => trivial)

/-! ## Unions and intersections -/

theorem memberCalls_honest (members : List TypeId) :
    KeepsHonest arena (memberCalls compile ctx members) fun calls =>
      ∀ e ∈ calls, e.Reports arena := by
  refine (Keeps.mapM fun type _ => compiled ctx type here).bind fun names _ => .pure ?_
  intro e inside
  obtain ⟨name, _, rfl⟩ := List.mem_map.1 inside
  exact Expr.reports_callOn name

theorem unionCheck_honest (members : List TypeId) :
    KeepsHonest arena (unionCheck compile ctx members) (Expr.Reports arena) := by
  unfold unionCheck
  split
  · have quiet : (Expr.bool true).IsQuiet := by simp [Expr.IsQuiet, Expr.nodes, Expr.isQuietNode]
    exact .pure quiet.reports
  · exact (memberCalls_honest compiled here members).bind fun calls reports =>
      .pure (Expr.reports_anyOf reports)

omit compiled here in
theorem exactKeysPredicate_honest (keys : List String) :
    KeepsHonest arena (exactKeysPredicate keys) fun _ => True := by
  refine (Build.ensure_honest (fun inner _ same => optionalName_ne_exactKeysName _ _ same.symm)
    (.pure fun visit runs steps => visit.keeps_exactKeys runs ?_)).mono fun _ _ => trivial
  have quiet : (Expr.or [.not (.typeOfIs .parameter "object"),
      .strictEq .parameter .null]).IsQuiet := by
    simp [Expr.typeOfIs, Expr.IsQuiet, Expr.nodes, Expr.nodesOfAll, Expr.isQuietNode, Expr.parameter]
  have always : (Expr.bool true).IsQuiet := by simp [Expr.IsQuiet, Expr.nodes, Expr.isQuietNode]
  simp only [Stmt.exec]
  refine (quiet.keeps visit.frame).bind fun v _ => ?_
  split
  · exact Stmt.keeps_result (always.keeps visit.frame)
  · exact .pure trivial

theorem intersectionCheck_honest (type : TypeId) (members : List TypeId) :
    KeepsHonest arena (intersectionCheck depth compile ctx type members) (Expr.Reports arena) := by
  have inner : (ctx.withExact false).arena = arena := here
  unfold intersectionCheck
  refine (memberCalls_honest compiled inner members).bind fun calls reports => ?_
  split
  · refine Keeps.lift_bind fun keys? _ => ?_
    split
    · refine (exactKeysPredicate_honest _).bind fun name _ => .pure (Expr.reports_and ?_)
      rw [List.forall_mem_append]
      exact ⟨reports, List.forall_mem_singleton.2 (Expr.reports_callOn name)⟩
    · exact .pure (Expr.reports_and reports)
  · exact .pure (Expr.reports_and reports)

/-! ## Keys and references -/

omit compiled here in
theorem keyofCheck_honest (operand : TypeId) :
    KeepsHonest arena (keyofCheck depth ctx operand) (Expr.Reports arena) := by
  unfold keyofCheck
  refine Keeps.lift_bind fun keys? _ => ?_
  split
  · refine .pure (Expr.reports_or fun e inside => Expr.IsQuiet.reports ?_)
    obtain ⟨key, _, rfl⟩ := List.mem_map.1 inside
    simp [Expr.IsQuiet, Expr.nodes, Expr.isQuietNode, Expr.parameter]
  · refine .pure (Expr.IsQuiet.reports ?_)
    simp [Expr.typeOfIs, Expr.IsQuiet, Expr.nodes, Expr.nodesOfAll, Expr.isQuietNode, Expr.parameter]

theorem referenceBody_honest (definition : Definition) (arguments : List TypeId) (name : String) :
    KeepsHonest arena (referenceBody compile ctx definition arguments) (Stmt.Reports arena name) := by
  unfold referenceBody
  refine Keeps.lift_bind fun inside entered => Keeps.lift_bind fun body _ => ?_
  have there : inside.arena = arena := (Context.arena_of_enter entered).trans here
  split
  · exact (compiled inside body there).bind fun name _ =>
      .pure (Stmt.reports_result (Expr.reports_callOn name))
  · exact Keeps.lift_bind fun shape _ => objectBody_honest compiled there shape name

/-! ## Indexed access -/

omit compiled here in
theorem firstNonempty_honest {find : TypeId → Build (List String)}
    (found : ∀ type, KeepsHonest arena (find type) fun names => ∀ name ∈ names, arena.IsSpelling name)
    (types : List TypeId) : KeepsHonest arena (firstNonempty find types)
      fun names => ∀ name ∈ names, arena.IsSpelling name := by
  induction types with
  | nil => exact .pure (by simp)
  | cons type rest ih =>
    refine (found type).bind fun names spelled => ?_
    split
    · exact ih
    · exact .pure spelled

theorem objectMembers_honest (shape : ObjectShape) (key : IndexKey) :
    KeepsHonest arena (objectMembers compile ctx shape key)
      fun names => ∀ name ∈ names, arena.IsSpelling name := by
  unfold objectMembers
  dsimp only
  split
  · split
    · exact .pure (by simp)
    split
    · exact .throw _
    · exact (compilePart_honest compiled here _ _).bind fun name part =>
        .pure (List.forall_mem_singleton.2 part.1)
  · split
    · exact (compiled ctx _ here).bind fun name spelled => .pure (List.forall_mem_singleton.2 spelled)
    · exact .pure (by simp)

theorem arrayMembers_honest (element : TypeId) (key : IndexKey) :
    KeepsHonest arena (arrayMembers compile ctx element key)
      fun names => ∀ name ∈ names, arena.IsSpelling name := by
  have single (type : TypeId) : KeepsHonest arena (do return [← compile ctx type])
      fun names => ∀ name ∈ names, arena.IsSpelling name :=
    (compiled ctx type here).bind fun name spelled => .pure (List.forall_mem_singleton.2 spelled)
  unfold arrayMembers
  split
  · exact single element
  · exact single element
  · exact single _
  · exact .pure (by simp)

theorem tupleMembers_honest (elements : List TupleElement) (key : IndexKey) :
    KeepsHonest arena (tupleMembers compile ctx elements key)
      fun names => ∀ name ∈ names, arena.IsSpelling name := by
  unfold tupleMembers
  split
  · split
    · exact (compilePart_honest compiled here _ _).bind fun name part =>
        .pure (List.forall_mem_singleton.2 part.1)
    · exact .pure (by simp)
  · refine (Keeps.mapM fun element _ => compiled ctx element.type here).bind fun names spelled =>
      .pure fun name listed => ?_
    obtain ⟨_, _, good⟩ := exists_left_of_forall₂ spelled (List.mem_eraseDups.1 listed)
    exact good
  · exact (compiled ctx _ here).bind fun name spelled => .pure (List.forall_mem_singleton.2 spelled)
  · exact .pure (by simp)

theorem membersWithin_honest (key : IndexKey) (steps : Nat) (type : TypeId) :
    KeepsHonest arena (membersWithin compile key steps ctx type)
      fun names => ∀ name ∈ names, arena.IsSpelling name := by
  induction steps generalizing ctx type with
  | zero => exact .throw _
  | succ steps ih =>
    unfold membersWithin
    refine Keeps.lift_bind fun descriptor _ => ?_
    split
    · exact objectMembers_honest compiled here _ key
    · exact arrayMembers_honest compiled here _ key
    · exact tupleMembers_honest compiled here _ key
    · refine Keeps.lift_bind fun definition _ => Keeps.lift_bind fun inside entered => ?_
      exact Keeps.lift_bind fun body _ =>
        firstNonempty_honest (ih ((Context.arena_of_enter entered).trans here)) _
    · exact Keeps.lift_bind fun target stands =>
        ih ((Context.arena_of_resolve stands).trans here) target.1
    · refine (Keeps.mapM fun member _ => ih here member).bind fun names spelled =>
        .pure fun name listed => ?_
      obtain ⟨part, inside, among⟩ := List.mem_flatten.1 (List.mem_eraseDups.1 listed)
      obtain ⟨_, _, good⟩ := exists_left_of_forall₂ spelled inside
      exact good name among
    · exact firstNonempty_honest (ih here) _
    · exact .pure (by simp)

theorem compileIndexAccess_honest (type whole index : TypeId) :
    KeepsHonest arena (compileIndexAccess depth compile ctx type whole index) arena.IsSpelling := by
  have selected (key : IndexKey) :
      KeepsHonest arena (selectedMembers depth compile ctx type whole key)
        fun names => ∀ name ∈ names, arena.IsSpelling name := by
    unfold selectedMembers
    refine (membersWithin_honest compiled here key _ whole).bind fun found spelled => ?_
    split
    · exact Keeps.lift_bind fun name _ => .throw _
    · exact .pure spelled
  unfold compileIndexAccess
  refine Keeps.lift_bind fun keys _ =>
    (Keeps.mapM fun key _ => selected key).bind fun found spelled => ?_
  split
  · exact .throw _
  · rename_i name only
    have listed : name ∈ found.flatten := List.mem_eraseDups.1 (by rw [only]; exact List.mem_cons_self)
    obtain ⟨part, inside, among⟩ := List.mem_flatten.1 listed
    obtain ⟨_, _, good⟩ := exists_left_of_forall₂ spelled inside
    exact .pure (good name among)
  · refine Keeps.lift_bind fun name made => Build.ensureExpr_nameOf here made (.pure ?_)
    refine Expr.reports_or fun e inside => ?_
    obtain ⟨name, _, rfl⟩ := List.mem_map.1 inside
    exact Expr.reports_callOn name

/-! ## All types -/

theorem compileDescriptor_honest (last : arena.OptionalLast) {type : TypeId} {descriptor : Descriptor}
    (found : ctx.arena.lookup? type = some descriptor) :
    KeepsHonest arena (compileDescriptor depth compile ctx type descriptor) arena.IsSpelling := by
  unfold compileDescriptor
  split
  · rename_i leaf isLeaf
    refine (Build.ensureExpr_leaf_honest isLeaf).mono ?_
    rintro name rfl
    exact Arena.isSpelling_leaf isLeaf
  split
  · exact Keeps.lift_bind fun name made =>
      Build.ensure_nameOf here made (arrayBody_honest compiled here _ name)
  · rw [here] at found
    have listed := Array.mem_toList_iff.2 (Array.mem_of_getElem? found)
    exact Keeps.lift_bind fun name made =>
      Build.ensureExpr_nameOf here made (tupleCheck_honest compiled here (last _ listed))
  · exact Keeps.lift_bind fun name made =>
      Build.ensure_nameOf here made (objectBody_honest compiled here _ name)
  · exact Keeps.lift_bind fun name made =>
      Build.ensureExpr_nameOf here made (unionCheck_honest compiled here _)
  · exact Keeps.lift_bind fun name made =>
      Build.ensureExpr_nameOf here made (intersectionCheck_honest compiled here type _)
  · exact Keeps.lift_bind fun definition _ => Keeps.lift_bind fun name made =>
      Build.ensure_nameOf here made (referenceBody_honest compiled here definition _ name)
  · exact Keeps.lift_bind fun target stands =>
      compiled target.2 target.1 ((Context.arena_of_resolve stands).trans here)
  · exact compileIndexAccess_honest compiled here type _ _
  · exact Keeps.lift_bind fun name made =>
      Build.ensureExpr_nameOf here made (keyofCheck_honest _)
  · exact .throw _

end

/-- Compilation completes honest predicates only, and returns spellings. -/
theorem compileWithin_honest (last : arena.OptionalLast) (depth : Nat) (ctx : Context) (type : TypeId)
    (here : ctx.arena = arena) :
    KeepsHonest arena (compileWithin depth ctx type) arena.IsSpelling := by
  induction depth generalizing ctx type with
  | zero => exact .throw _
  | succ depth ih =>
    unfold compileWithin
    exact Keeps.lift_bind fun descriptor found =>
      compileDescriptor_honest ih here last (Arena.lookup_eq_ok.1 found)

theorem compileRoot_honest (last : arena.OptionalLast) (options : CompileOptions) (type : TypeId) :
    KeepsHonest arena ((Context.root arena options).compileRoot type) fun _ => True := by
  have compiled (type : TypeId) : KeepsHonest arena ((Context.root arena options).compile type)
      arena.IsSpelling := compileWithin_honest last _ _ type rfl
  unfold Context.compileRoot
  split
  · exact (compiled _).mono fun _ _ => trivial
  · refine (compiled type).bind fun name _ => ?_
    split
    · exact (Build.optional_honest name).mono fun _ _ => trivial
    · exact .pure trivial

end ShapeCheck
