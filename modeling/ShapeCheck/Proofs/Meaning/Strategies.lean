import ShapeCheck.Proofs.Meaning.Predicates

set_option autoImplicit false

/-! # What the bodies of predicates decide

For each kind of type, the body that is built for it decides the equation of the type, if the
predicates of its parts mean what they should.

Main facts: `Descriptor.leaf?_tells`, `arrayBody_tell`, `tupleCheck_tells`, `objectBody_tell`,
`unionCheck_tells`, `intersectionCheck_tells` and `referenceBody_tell`, one for each kind.
-/

namespace ShapeCheck

theorem Double.equals_iff_le {x y : Double} :
    x.equals y = true ↔ y.le x = true ∧ x.le y = true := by
  simp only [equals, le, Bool.and_eq_true, Bool.not_eq_true', beq_iff_eq, decide_eq_true_eq]
  constructor
  · rintro ⟨⟨number, number'⟩, same⟩
    exact ⟨⟨⟨number', number⟩, by omega⟩, ⟨number, number'⟩, by omega⟩
  · rintro ⟨⟨⟨number', number⟩, above⟩, -, below⟩
    exact ⟨⟨number, number'⟩, by omega⟩

/-- The step of a compilation keeps the predicates deciding, and its results have the property. -/
abbrev KeepsDeciding {α : Type} (M : String → Value → Prop) (m : Build α) (Q : α → Prop) : Prop :=
  Keeps (Registry.Holds (Predicate.Decides M)) m Q

/-- The name means the property. -/
def Stands (M : String → Value → Prop) (P : Value → Prop) (name : String) : Prop :=
  ∀ v, M name v ↔ P v

section
variable {M : String → Value → Prop} {P Q : Value → Prop}

theorem Answers.of_stands {call : String → Located → Run Unit Bool} (answers : Answers M call)
    {name : String} (stands : Stands M P name) (x : Located) :
    Yields (call name x) fun b => b = true ↔ P x.value :=
  (answers name x).mono fun _ tests => tests.trans (stands x.value)

theorem Expr.tells_callOn {name : String} (stands : Stands M P name) :
    (Expr.callOn name).Tells M P :=
  fun _ answers x => tests_call reads_parameter (answers.of_stands stands x)

theorem Expr.tells_bool (b : Bool) : (Expr.bool b).Tells M fun _ => b = true :=
  fun _ _ _ => tests_bool b

theorem Expr.tells_typeOfIs (tag : String) :
    (Expr.typeOfIs .parameter tag).Tells M fun v => v.typeOf = tag :=
  fun _ _ _ => tests_typeOfIs tag reads_parameter

/-! ## Leaves -/

section
variable {σ : Type} {observe : Observer σ} {call : String → Located → Run σ Bool} {x : Located}

theorem Expr.tests_text (text : String) : Tests observe call (Frame.ofValue x)
    (.strictEq .parameter (.string text)) (x.value = .string text) :=
  (tests_strictEq reads_parameter (reads_string text)).congr
    (by rw [x.strictEquals_computed rfl, Value.primitiveEquals_string])

theorem Expr.tests_nonPrimitive (name : String) : Tests observe call (Frame.ofValue x)
    (Leaf.nonPrimitive name).check (x.value.IsObject ∨ x.value.typeOf = "function") := by
  have object : Tests observe call (Frame.ofValue x)
      (.and [.typeOfIs .parameter "object", .strictNe .parameter .null]) _ :=
    tests_and (allTest_cons (tests_typeOfIs "object" reads_parameter)
      (allTest_cons tests_notNull allTest_nil))
  have function : Tests observe call (Frame.ofValue x) (.typeOfIs .parameter "function") _ :=
    tests_typeOfIs "function" reads_parameter
  refine (tests_or (someTest_cons object (someTest_cons function someTest_nil))).congr ?_
  simp [Value.IsObject]

theorem Expr.tests_view (kind : ViewKind) : Tests observe call (Frame.ofValue x)
    (Leaf.ofView kind).check (∃ bytes, x.value = .view kind bytes) := by
  have whole : Reads observe call (Frame.ofValue x) .parameter x := reads_parameter
  have constructor := tests_strictEq (reads_constructorName whole)
    (reads_string kind.constructorName)
  refine (tests_and (allTest_cons (tests_isView reads_parameter)
    (allTest_cons constructor allTest_nil))).congr ?_
  rw [Located.strictEquals_computed _ rfl, Located.computed]
  cases value : x.value with
  | view kind' bytes =>
    have apart : kind'.constructorName = kind.constructorName ↔ kind' = kind := by
      refine ⟨fun same => ?_, congrArg _⟩
      have known := congrArg ViewKind.ofConstructorName? same
      simpa only [ViewKind.ofConstructorName?_constructorName, Option.some.injEq] using known
    simp [Value.isView, Value.constructorName?, Value.primitiveEquals_string, apart]
  | buffer bytes =>
    have other : "Buffer" ≠ kind.constructorName := by cases kind <;> decide
    simp [Value.isView, Value.constructorName?, Value.primitiveEquals_string, other]
  | _ => simp [Value.isView]

/-- The check of a leaf tests the equation of its type. -/
theorem Descriptor.leaf?_tests {descriptor : Descriptor} {leaf : Leaf}
    (h : descriptor.leaf? = some leaf) (A : TypeId → Bool → Value → Prop) (exact : Bool)
    (arena : Arena) (type : TypeId) :
    leaf.check.Tests observe call (Frame.ofValue x) (descriptor.Admits A exact x.value arena type) := by
  cases descriptor with
  | keyword word =>
    cases word with
    | any | unknown =>
      cases h
      exact (Expr.tests_bool true).congr (by simp [Descriptor.Admits, Keyword.Admits])
    | never =>
      cases h
      exact (Expr.tests_bool false).congr (by simp [Descriptor.Admits, Keyword.Admits])
    | null =>
      cases h
      exact Expr.tests_isNull
    | undefined =>
      cases h
      exact Expr.tests_undefined Expr.reads_parameter
    | number | bigint | boolean | string =>
      cases h
      exact Expr.tests_typeOfIs _ Expr.reads_parameter
    | object =>
      cases h
      exact Expr.tests_nonPrimitive _
    | symbol => cases h
  | stringLiteral text =>
    cases h
    exact Expr.tests_text text
  | numberLiteral n =>
    cases h
    exact (Expr.tests_strictEq Expr.reads_parameter (Expr.reads_number n)).congr
      (by rw [x.strictEquals_computed rfl, Value.primitiveEquals_number]; rfl)
  | booleanLiteral b =>
    cases h
    exact (Expr.tests_strictEq Expr.reads_parameter (Expr.reads_bool b)).congr
      (by rw [x.strictEquals_computed rfl, Value.primitiveEquals_bool]; rfl)
  | buffer =>
    cases h
    refine (Expr.tests_isBuffer Expr.reads_parameter).congr ?_
    cases value : x.value <;> simp [Value.isBuffer, Descriptor.Admits]
  | view kind =>
    cases h
    exact Expr.tests_view kind
  | _ => cases h

end

theorem Descriptor.leaf?_tells {descriptor : Descriptor} {leaf : Leaf}
    (h : descriptor.leaf? = some leaf) (A : TypeId → Bool → Value → Prop) (exact : Bool)
    (arena : Arena) (type : TypeId) :
    leaf.check.Tells M fun v => descriptor.Admits A exact v arena type :=
  fun _ _ _ => leaf?_tests h A exact arena type

/-! ## Parts -/

/-- A part of a value, under the variable of a loop. -/
theorem Stmt.guards_memberCheck {call : String → Located → Run Unit Bool} (answers : Answers M call)
    {name binder : String} (other : binder ≠ Expr.parameterName) (stands : Stands M P name)
    (x : Located) (key : Value) :
    Guards Observer.silent call ((Frame.ofValue x).bind binder (.computed key))
      (memberCheck name binder) (P (x.getKeyOf key).value) := by
  have part : Expr.Reads Observer.silent call ((Frame.ofValue x).bind binder (.computed key))
      (.index .parameter (.var binder)) (x.getKeyOf key) := Expr.reads_element other key
  exact guards_rejectUnless (Expr.tests_call part (answers.of_stands stands _))

/-- A predicate that accepts `undefined` as well. -/
theorem Build.optional_decides {inner : String} (stands : Stands M P inner)
    (wrapped : Stands M (fun v => v = .undefined ∨ P v) (optionalName inner)) :
    KeepsDeciding M (optional inner) (· = optionalName inner) := by
  refine ensureExpr_decides (fun v => (wrapped v).symm) (.pure fun call answers x => ?_)
  have called := Expr.tells_callOn stands call answers x
  refine (Expr.tests_or (Expr.someTest_cons (Expr.tests_undefined Expr.reads_parameter)
    (Expr.someTest_cons called Expr.someTest_nil))).congr ?_
  rw [or_false]

section
variable {compile : Context → TypeId → Build String} {ctx : Context}
  {A : TypeId → Bool → Value → Prop}

theorem compilePart_stands {type : TypeId} {optional : Bool}
    (compiled : KeepsDeciding M (compile ctx type) fun name => Stands M P name ∧
      (optional = true → Stands M (fun v => v = .undefined ∨ P v) (optionalName name))) :
    KeepsDeciding M (compilePart compile ctx type optional)
      (Stands M fun v => (optional = true ∧ v = .undefined) ∨ P v) := by
  unfold compilePart
  refine compiled.bind fun name ⟨stands, wrapped⟩ => ?_
  split
  · rename_i isOptional
    refine (Build.optional_decides stands (wrapped isOptional)).mono ?_
    rintro name rfl
    simpa only [isOptional, true_and] using wrapped isOptional
  · rename_i required
    exact .pure fun v => by simp [stands v, required]

/-! ## Arrays and tuples -/

theorem arrayBody_tell {element : TypeId}
    (compiled : KeepsDeciding M (compile ctx element) (Stands M (A element ctx.exact))) :
    KeepsDeciding M (arrayBody compile ctx element) fun stmts => Stmt.Tell M stmts fun v =>
      v.isArray = true ∧ ∀ i < v.count, A element ctx.exact (v.element i) := by
  unfold arrayBody
  refine compiled.bind fun name stands => Keeps.get_bind fun r holds => ?_
  have isArray (call) (x : Located) : (Expr.isArray .parameter).Tests Observer.silent call
      (Frame.ofValue x) (x.value.isArray = true) := Expr.tests_isArray Expr.reads_parameter
  split
  · rename_i always
    have all (v : Value) : A element ctx.exact v :=
      (stands v).1 (Registry.means_of_isAlwaysTrue holds always v)
    refine .pure fun call answers x => ?_
    exact (Stmt.decide_result (isArray call x)).congr (by simp [all])
  · refine .pure fun call answers x => ?_
    have items : Stmt.Guards Observer.silent call (Frame.ofValue x)
        (.forIndex Expr.indexName .parameter [memberCheck name Expr.indexName])
        (∀ i < x.value.count, A element ctx.exact
          (x.getKeyOf (.number (Double.ofNat i))).value) :=
      Stmt.guards_forIndex Expr.reads_parameter fun i _ =>
        Stmt.guards_memberCheck answers (by decide) stands x _
    refine (Stmt.decide_cons (Stmt.guards_rejectUnless (isArray call x))
      (Stmt.decide_cons items (Stmt.decide_result (Expr.tests_bool true)))).congr ?_
    simp [Value.element, Located.getKeyOf, Located.getIndex_value]

/-- The length of an array is allowed. -/
theorem tests_lengthTests (elements : List TupleElement) {σ : Type} {observe : Observer σ}
    {call : String → Located → Run σ Bool} {x : Located} (isArray : x.value.isArray = true) :
    Expr.AllTest observe call (Frame.ofValue x) (lengthTests elements)
      ((Double.ofNat (TupleElement.minLength elements)).le (Double.ofNat x.value.count) = true ∧
        (Double.ofNat x.value.count).le (Double.ofNat elements.length) = true) := by
  have whole : Expr.Reads observe call (Frame.ofValue x) .parameter x :=
    Expr.reads_parameter
  have length : Expr.Reads observe call (Frame.ofValue x) (.length .parameter)
      (.computed (.number (Double.ofNat x.value.count))) := by
    obtain ⟨value, place⟩ := x
    cases value with
    | array items => exact Expr.reads_length whole
    | _ => cases isArray
  unfold lengthTests
  dsimp only
  split
  · rename_i same
    refine (Expr.allTest_cons (Expr.tests_strictEq length (Expr.reads_number _))
      Expr.allTest_nil).mono fun _ tests => tests.trans ?_
    rw [same, and_true, Located.strictEquals_computed _ rfl]
    exact Double.equals_iff_le
  · refine (Expr.allTest_cons (Expr.tests_compare .ge length (Expr.reads_number _))
      (Expr.allTest_cons (Expr.tests_compare .le length (Expr.reads_number _))
        Expr.allTest_nil)).mono fun _ tests => tests.trans ?_
    rw [and_true]
    rfl

/-- Every position of a tuple, from a position on. -/
theorem elementTests_test {elements : List TupleElement} (position : Nat)
    (compiled : ∀ element ∈ elements,
      KeepsDeciding M (compilePart compile ctx element.type element.optional)
        (Stands M fun v => (element.optional = true ∧ v = .undefined) ∨
          A element.type ctx.exact v)) :
    KeepsDeciding M (elementTests compile ctx position elements) fun tests =>
      ∀ call, Answers M call → ∀ x, Expr.AllTest Observer.silent call (Frame.ofValue x) tests
        (∀ (i : Nat) (element : TupleElement), elements[i]? = some element →
          element.Admits A ctx.exact x.value (position + i)) := by
  induction elements generalizing position with
  | nil => exact .pure fun _ _ _ => by simpa using Expr.allTest_nil
  | cons element rest ih =>
    refine (compiled element (by simp)).bind fun name stands => ?_
    refine (ih (position + 1) fun other inside => compiled other (by simp [inside])).bind
      fun tests below => .pure fun call answers x => ?_
    have part : Expr.Reads Observer.silent call (Frame.ofValue x)
        (.index .parameter (.number (Double.ofNat position)))
        (x.getKeyOf (.number (Double.ofNat position))) :=
      Expr.reads_index Expr.reads_parameter (Expr.reads_number _)
    have here := Expr.tests_call part (answers.of_stands stands _)
    refine (Expr.allTest_cons here (below call answers x)).mono fun _ tests => tests.trans ?_
    simp only [Located.getKeyOf, Located.getIndex_value]
    constructor
    · rintro ⟨first, later⟩ i other listed
      cases i with
      | zero =>
        obtain rfl := Option.some.inj listed
        exact first
      | succ i =>
        have there := later i other listed
        rwa [Nat.add_right_comm] at there
    · intro all
      refine ⟨all 0 element rfl, fun i other listed => ?_⟩
      have there := all (i + 1) other listed
      rwa [← Nat.add_assoc, Nat.add_right_comm] at there

theorem tupleCheck_tells {elements : List TupleElement}
    (compiled : ∀ element ∈ elements,
      KeepsDeciding M (compilePart compile ctx element.type element.optional)
        (Stands M fun v => (element.optional = true ∧ v = .undefined) ∨
          A element.type ctx.exact v)) :
    KeepsDeciding M (tupleCheck compile ctx elements) fun e =>
      e.Tells M fun v => TupleElement.AllAdmit A ctx.exact v elements := by
  refine (elementTests_test 0 compiled).bind fun tests below => .pure fun call answers x => ?_
  have isArray : (Expr.isArray .parameter).Tests Observer.silent call (Frame.ofValue x)
      (x.value.isArray = true) := Expr.tests_isArray Expr.reads_parameter
  refine (Expr.tests_and (Expr.allTest_cons_of isArray fun isArray =>
    Expr.allTest_append (tests_lengthTests elements isArray) (below call answers x))).congr ?_
  simp only [Nat.zero_add]
  constructor
  · rintro ⟨isArray, ⟨least, most⟩, all⟩
    exact ⟨isArray, least, most, all⟩
  · rintro ⟨isArray, least, most, all⟩
    exact ⟨isArray, ⟨least, most⟩, all⟩

/-! ## Objects -/

theorem Expr.tests_plainObject {σ : Type} {observe : Observer σ}
    {call : String → Located → Run σ Bool} {x : Located} :
    AllTest observe call (Frame.ofValue x) (plainObjectTests .parameter)
      (x.value.IsObject ∧ x.value.isArray = false) := by
  refine (allTest_cons (tests_typeOfIs "object" reads_parameter) (allTest_cons tests_notNull
    (allTest_cons (tests_not (tests_isArray reads_parameter)) allTest_nil))).mono
      fun _ tests => tests.trans ?_
  simp [Value.IsObject, and_assoc]

/-- The test of a member, if there is one. -/
theorem propertyTest?_test {property : Property}
    (compiled : property.symbolKeyed = false → property.method = false →
      ∀ type, property.type = some type →
        KeepsDeciding M (compile ctx type) (Stands M (A type ctx.exact))) :
    KeepsDeciding M (propertyTest? compile ctx property) fun test? =>
      ∀ call, Answers M call → ∀ x, Expr.AllTest Observer.silent call (Frame.ofValue x)
        test?.toList (property.Admits A ctx.exact x.value) := by
  have skipped (admits : ∀ v, property.Admits A ctx.exact v) (call : String → Located → Run Unit Bool)
      (x : Located) : Expr.AllTest Observer.silent call (Frame.ofValue x) []
        (property.Admits A ctx.exact x.value) :=
    Expr.allTest_nil.mono fun _ tests => tests.trans (by simp [admits])
  unfold propertyTest?
  split
  · rename_i symbols
    exact .pure fun call _ x => skipped (fun _ texts => by simp [symbols] at texts) call x
  rename_i texts
  split
  · rename_i method
    split
    · exact .pure fun call _ x => skipped (fun _ _ field => by simp [method] at field) call x
    · exact .throw _
  rename_i field
  simp only [Bool.not_eq_true] at texts field
  split
  · exact .throw _
  · rename_i type declared
    refine (compiled texts field type declared).bind fun name stands => .pure fun call answers x => ?_
    have member : Expr.Reads Observer.silent call (Frame.ofValue x)
        (.member .parameter property.name) (x.get property.name) :=
      Expr.reads_member property.name Expr.reads_parameter
    have check := Expr.tests_call member (answers.of_stands stands _)
    have single {e : Expr} (tests : e.Tests Observer.silent call (Frame.ofValue x)
        (property.Admits A ctx.exact x.value)) : Expr.AllTest Observer.silent call
          (Frame.ofValue x) [e] (property.Admits A ctx.exact x.value) :=
      (Expr.allTest_cons tests Expr.allTest_nil).mono fun _ tests => tests.trans (and_iff_left trivial)
    simp only [Option.toList]
    split
    · rename_i optional
      refine single ((Expr.tests_or (Expr.someTest_cons (Expr.tests_undefined member)
        (Expr.someTest_cons check Expr.someTest_nil))).congr ?_)
      simp [Property.Admits, texts, field, declared, optional, Located.get_value]
    · rename_i required
      refine single ((Expr.tests_and (Expr.allTest_cons
        (Expr.tests_hasName property.name Expr.reads_parameter)
          (Expr.allTest_cons check Expr.allTest_nil))).congr ?_)
      simp [Property.Admits, texts, field, declared, required, Located.get_value]

/-- Statements in front of others that let pass what has the property. -/
def Stmt.Filter (M : String → Value → Prop) (stmts : List Stmt) (P : Value → Prop) : Prop :=
  ∀ rest Q, Tell M rest Q → Tell M (stmts ++ rest) fun v => P v ∧ Q v

theorem Stmt.filter_nil (all : ∀ v, P v) : Filter M [] P :=
  fun _ _ tell => tell.congr fun v => by simp [all v]

theorem Stmt.filter_singleton {stmt : Stmt}
    (guards : ∀ call, Answers M call → ∀ x,
      Guards Observer.silent call (Frame.ofValue x) stmt (P x.value)) : Filter M [stmt] P :=
  fun _ _ tell call answers x => decide_cons (guards call answers x) (tell call answers x)

/-- Every key is one of some keys. -/
theorem guards_exactKeysLoop (keys : List String) {call : String → Located → Run Unit Bool}
    (x : Located) : Stmt.Guards Observer.silent call (Frame.ofValue x) (exactKeysLoop keys)
      (∀ key ∈ x.value.keys, key ∈ keys) := by
  refine Stmt.guards_forKeys Expr.reads_parameter fun key _ => ?_
  have bound : Expr.Reads Observer.silent call
      ((Frame.ofValue x).bind Expr.keyName (.computed (.string key))) (.var Expr.keyName)
        (.computed (.string key)) := Expr.reads_var Expr.keyName
  exact Stmt.guards_rejectUnless (Expr.tests_oneOf keys bound)

/-- The own keys are as the shape asks. -/
def ObjectShape.KeysAdmit (A : TypeId → Bool → Value → Prop) (exact : Bool) (shape : ObjectShape)
    (v : Value) : Prop :=
  match shape.index with
  | some type => ∀ key ∈ v.keys, A type exact (v.get key)
  | none => exact = true → ∀ key ∈ v.keys, key ∈ shape.keys

theorem ObjectShape.admits_iff {exact : Bool} {shape : ObjectShape} {v : Value} :
    shape.Admits A exact v ↔ ((v.IsObject ∧ v.isArray = false) ∧
      ∀ property ∈ shape.properties, property.Admits A exact v) ∧ shape.KeysAdmit A exact v := by
  unfold KeysAdmit
  constructor
  · rintro ⟨isObject, notArray, properties, index, declared⟩
    refine ⟨⟨⟨isObject, notArray⟩, properties⟩, ?_⟩
    split
    · exact index _ ‹_›
    · exact fun exact key own => mem_keys.2 (declared ‹_› exact key own)
  · rintro ⟨⟨⟨isObject, notArray⟩, properties⟩, keys⟩
    refine ⟨isObject, notArray, properties, fun type index => ?_, fun none exact key own => ?_⟩
    · simpa only [index] using keys
    · simp only [none] at keys
      exact mem_keys.1 (keys exact key own)

theorem keyLoop_filter {shape : ObjectShape}
    (compiled : ∀ type, shape.index = some type →
      KeepsDeciding M (compile ctx type) (Stands M (A type ctx.exact))) :
    KeepsDeciding M (keyLoop compile ctx shape)
      fun loops => Stmt.Filter M loops (shape.KeysAdmit A ctx.exact) := by
  unfold keyLoop
  split
  · rename_i type index
    have same (v : Value) : shape.KeysAdmit A ctx.exact v ↔
        ∀ key ∈ v.keys, A type ctx.exact (v.get key) := by
      simp only [ObjectShape.KeysAdmit, index]
    refine (compiled type index).bind fun name stands => Keeps.get_bind fun r holds => .pure ?_
    split
    · rename_i always
      exact Stmt.filter_nil fun v => (same v).2 fun key _ =>
        (stands _).1 (Registry.means_of_isAlwaysTrue holds always _)
    · refine Stmt.filter_singleton fun call answers x => ?_
      have members : Stmt.Guards Observer.silent call (Frame.ofValue x)
          (.forKeys Expr.keyName .parameter [memberCheck name Expr.keyName])
          (∀ key ∈ x.value.keys, A type ctx.exact (x.getKeyOf (.string key)).value) :=
        Stmt.guards_forKeys Expr.reads_parameter fun key _ =>
          Stmt.guards_memberCheck answers (by decide) stands x _
      simp only [Located.getKeyOf, Located.get_value] at members
      exact members.congr (same x.value).symm
  · rename_i index
    have same (v : Value) : shape.KeysAdmit A ctx.exact v ↔
        (ctx.exact = true → ∀ key ∈ v.keys, key ∈ shape.keys) := by
      simp only [ObjectShape.KeysAdmit, index]
    refine .pure ?_
    split
    · rename_i exact
      refine Stmt.filter_singleton fun call _ x => (guards_exactKeysLoop shape.keys x).congr ?_
      rw [same, exact, forall_prop_of_true rfl]
    · rename_i loose
      exact Stmt.filter_nil fun v => (same v).2 fun exact => absurd exact loose

theorem objectBody_tell {shape : ObjectShape}
    (properties : ∀ property ∈ shape.properties, property.symbolKeyed = false →
      property.method = false → ∀ type, property.type = some type →
        KeepsDeciding M (compile ctx type) (Stands M (A type ctx.exact)))
    (index : ∀ type, shape.index = some type →
      KeepsDeciding M (compile ctx type) (Stands M (A type ctx.exact))) :
    KeepsDeciding M (objectBody compile ctx shape) fun stmts =>
      Stmt.Tell M stmts fun v => shape.Admits A ctx.exact v := by
  unfold objectBody
  refine (Keeps.filterMapM fun property inside => propertyTest?_test (properties property inside)).bind
    ?_
  rintro tests ⟨found, related, rfl⟩
  refine (keyLoop_filter index).bind fun loops filter => .pure ?_
  have all : (Expr.and (Expr.plainObjectTests .parameter ++ found.filterMap id)).Tells M fun v =>
      (v.IsObject ∧ v.isArray = false) ∧ ∀ property ∈ shape.properties, property.Admits A ctx.exact v := by
    intro call answers x
    rw [List.filterMap_eq_flatMap_toList, List.flatMap_def]
    refine Expr.tests_and (Expr.allTest_append Expr.tests_plainObject (Expr.allTest_flatten ?_))
    rw [List.forall₂_map_right_iff]
    exact related.imp fun property test? tests => tests call answers x
  split
  · rename_i none
    have tell := filter _ _ (Stmt.tell_result all)
    rw [List.isEmpty_iff.1 none] at tell
    exact tell.congr fun v => and_comm.trans ObjectShape.admits_iff.symm
  · have tell := filter _ _ (Stmt.tell_result (Expr.tells_bool true))
    intro call answers x
    refine (Stmt.decide_cons (Stmt.guards_rejectUnless (all call answers x))
      (tell call answers x)).congr ?_
    simp only [and_true, ObjectShape.admits_iff]

/-! ## Unions and intersections -/

/-- Each member has its call, and there are no other calls. -/
theorem memberCalls_test {members : List TypeId}
    (compiled : ∀ member ∈ members,
      KeepsDeciding M (compile ctx member) (Stands M (A member ctx.exact))) :
    KeepsDeciding M (memberCalls compile ctx members) fun calls =>
      ∀ call, Answers M call → ∀ x,
        Expr.AllTest Observer.silent call (Frame.ofValue x) calls
          (∀ member ∈ members, A member ctx.exact x.value) ∧
        Expr.SomeTest Observer.silent call (Frame.ofValue x) calls
          (∃ member ∈ members, A member ctx.exact x.value) := by
  refine (Keeps.mapM compiled).bind fun names stand => .pure fun call answers x => ?_
  have each (name : String) (_ : name ∈ names.eraseDups) : (Expr.callOn name).Tests Observer.silent
      call (Frame.ofValue x) (M name x.value) :=
    Expr.tells_callOn (fun _ => Iff.rfl) call answers x
  refine ⟨(Expr.allTest_map each).mono fun _ tests => tests.trans ?_,
    (Expr.someTest_map each).mono fun _ tests => tests.trans ?_⟩
  · simp only [List.mem_eraseDups]
    constructor
    · intro all member inside
      obtain ⟨name, listed, stands⟩ := exists_right_of_forall₂ stand inside
      exact (stands _).1 (all name listed)
    · intro all name listed
      obtain ⟨member, inside, stands⟩ := exists_left_of_forall₂ stand listed
      exact (stands _).2 (all member inside)
  · simp only [List.mem_eraseDups]
    constructor
    · rintro ⟨name, listed, means⟩
      obtain ⟨member, inside, stands⟩ := exists_left_of_forall₂ stand listed
      exact ⟨member, inside, (stands _).1 means⟩
    · rintro ⟨member, inside, admits⟩
      obtain ⟨name, listed, stands⟩ := exists_right_of_forall₂ stand inside
      exact ⟨name, listed, (stands _).2 admits⟩

theorem unionCheck_tells {members : List TypeId} (nonempty : members ≠ [])
    (compiled : ∀ member ∈ members,
      KeepsDeciding M (compile ctx member) (Stands M (A member ctx.exact))) :
    KeepsDeciding M (unionCheck compile ctx members) fun e =>
      e.Tells M fun v => ∃ member ∈ members, A member ctx.exact v := by
  unfold unionCheck
  split
  · rename_i none
    exact absurd (List.isEmpty_iff.1 none) nonempty
  · refine (memberCalls_test compiled).bind fun calls tests => .pure fun call answers x => ?_
    exact Expr.tests_anyOf (tests call answers x).2

/-- The check for keys outside of a set. -/
theorem exactKeysPredicate_stands {keys : List String}
    (stands : Stands M (fun v => v.IsObject → ∀ key ∈ v.keys, key ∈ keys) (exactKeysName keys)) :
    KeepsDeciding M (exactKeysPredicate keys)
      (Stands M fun v => v.IsObject → ∀ key ∈ v.keys, key ∈ keys) := by
  refine (Build.ensure_decides (fun v => (stands v).symm) (.pure fun call answers x => ?_)).mono ?_
  · have other := Expr.tests_or (Expr.someTest_cons
      (Expr.tests_not (Expr.tells_typeOfIs "object" call answers x))
      (Expr.someTest_cons Expr.tests_isNull Expr.someTest_nil))
    refine (Stmt.decide_accept other (Stmt.decide_cons (guards_exactKeysLoop keys x)
      (Stmt.decide_result (Expr.tests_bool true)))).congr ?_
    simp only [or_false, and_true, Value.IsObject]
    tauto
  · rintro name rfl
    exact stands

/-- All members, and then the keys of the whole. -/
theorem intersectionCheck_tells {depth : Nat} {type : TypeId} {members : List TypeId}
    (compiled : ∀ member ∈ members,
      KeepsDeciding M (compile (ctx.withExact false) member) (Stands M (A member false)))
    (tells : ∀ keys?, ctx.collectKeys depth type = .ok keys? → keys?.Tells ctx.arena type)
    (named : ctx.exact = true → ∀ keys, ctx.collectKeys depth type = .ok (some keys) →
      Stands M (fun v => v.IsObject → ∀ key ∈ v.keys, key ∈ keys) (exactKeysName keys)) :
    KeepsDeciding M (intersectionCheck depth compile ctx type members) fun e => e.Tells M fun v =>
      (∀ member ∈ members, A member false v) ∧ (ctx.exact = true → ¬ ctx.arena.OpenKeys type →
        v.IsObject → ∀ key ∈ v.keys, ctx.arena.HasKey key type) := by
  unfold intersectionCheck
  refine (memberCalls_test compiled).bind fun calls tests => ?_
  have all : (Expr.and calls).Tells M fun v => ∀ member ∈ members, A member false v :=
    fun call answers x => Expr.tests_and (tests call answers x).1
  split
  · rename_i exact
    refine Keeps.lift_bind fun keys? collected => ?_
    have told := tells keys? collected
    split
    · rename_i keys
      refine (exactKeysPredicate_stands (named exact keys collected)).bind
        fun name stands => .pure fun call answers x => ?_
      have last := Expr.tells_callOn stands call answers x
      refine (Expr.tests_and (Expr.allTest_append (tests call answers x).1
        (Expr.allTest_cons last Expr.allTest_nil))).congr ?_
      simp only [and_true, exact, true_imp_iff, told.1, not_false_eq_true, told.2]
      rfl
    · exact .pure (all.congr fun v => by simp [show ctx.arena.OpenKeys type from told])
  · rename_i loose
    exact .pure (all.congr fun v => by simp [loose])

/-! ## References -/

/-- A reference to a definition that is not generic and extends no other. -/
theorem referenceBody_tell {definition : Definition} {arguments : List TypeId} {body : TypeId}
    (plain : definition.parameters = [] ∧ definition.bases = []) (given : definition.body = some body)
    (compiled : KeepsDeciding M (compile ctx body) (Stands M (A body ctx.exact))) :
    KeepsDeciding M (referenceBody compile ctx definition arguments) fun stmts =>
      Stmt.Tell M stmts (A body ctx.exact) := by
  unfold referenceBody
  rw [ctx.enter_of_monomorphic plain, Definition.requireBody_eq_ok.2 given, plain.2]
  refine compiled.bind fun name stands => .pure ?_
  exact Stmt.tell_result (Expr.tells_callOn stands)

end

end

end ShapeCheck
