import ShapeCheck.Proofs.Simulation.Descriptors

set_option autoImplicit false

/-! # Strategies side by side

Two runs of a strategy, for parts that are compared already, are compared step by step: they have the same
shape, and differ in their parts only. What it means to compare two steps is left open; it only has to pass
from the steps of a sequence to the sequence (`IsComparison`). Only the parts that a strategy compiles have
to be compared: types of methods and of members that are keyed by symbols are not.

Main facts: `IsComparison.arrayBody`, `IsComparison.tupleCheck`, `IsComparison.objectBody` and
`IsComparison.unionCheck`.
-/

namespace ShapeCheck

/-- A relation between steps, up to a relation between their results, that a sequence has if its steps
have it. -/
structure IsComparison (T : {α β : Type} → (α → β → Prop) → Build α → Build β → Prop) : Prop where
  pure : ∀ {α β : Type} {R : α → β → Prop} {a : α} {b : β}, R a b → T R (Pure.pure a) (Pure.pure b)
  throw : ∀ {α β : Type} {R : α → β → Prop} (e e' : CompileError),
    T R (MonadExcept.throw e : Build α) (MonadExcept.throw e' : Build β)
  bind : ∀ {α β γ δ : Type} {R : α → β → Prop} {R' : γ → δ → Prop} {m : Build α} {n : Build β}
    {f : α → Build γ} {g : β → Build δ}, T R m n → (∀ a b, R a b → T R' (f a) (g b)) →
      T R' (m >>= f) (n >>= g)

/-- Builds a part, and asks whether its predicate accepts everything. -/
def askPart (compile : Context → TypeId → Build String) (ctx : Context) (type : TypeId) :
    Build (String × Bool) := do
  let name ← compile ctx type
  return (name, (← get).isAlwaysTrue name)

theorem arrayBody_eq_askPart (compile : Context → TypeId → Build String) (ctx : Context)
    (element : TypeId) : arrayBody compile ctx element = do
      let asked ← askPart compile ctx element
      return if asked.2 then [.result (.isArray .parameter)]
        else [.rejectUnless (.isArray .parameter),
          .forIndex Expr.indexName .parameter [memberCheck asked.1 Expr.indexName],
          .result (.bool true)] := by
  unfold arrayBody askPart
  simp only [bind_assoc, pure_bind]
  refine bind_congr fun name => bind_congr fun registry => ?_
  split <;> rfl

theorem keyLoop_eq_askPart (compile : Context → TypeId → Build String) {ctx : Context}
    {shape : ObjectShape} {type : TypeId} (indexed : shape.index = some type) :
    keyLoop compile ctx shape = do
      let asked ← askPart compile ctx type
      return if asked.2 then []
        else [.forKeys Expr.keyName .parameter [memberCheck asked.1 Expr.keyName]] := by
  unfold keyLoop askPart
  simp only [indexed, bind_assoc, pure_bind]

theorem forall₂_and_mem {α β : Type} {R : α → β → Prop} {as : List α} {bs : List β}
    (h : List.Forall₂ R as bs) : List.Forall₂ (fun a b => R a b ∧ a ∈ as ∧ b ∈ bs) as bs := by
  induction h with
  | nil => exact .nil
  | cons here _ ih =>
    refine .cons ⟨here, List.mem_cons_self, List.mem_cons_self⟩ (ih.imp fun a b ⟨related, left, right⟩ => ?_)
    exact ⟨related, List.mem_cons_of_mem _ left, List.mem_cons_of_mem _ right⟩

/-- The tests of the length ask for the same length. -/
theorem lengthTests_eq {R : TypeId → TypeId → Prop} {elements elements' : List TupleElement}
    (h : List.Forall₂ (TupleElement.Pairs R) elements elements') :
    lengthTests elements = lengthTests elements' := by
  have least : TupleElement.minLength elements = TupleElement.minLength elements' := by
    unfold TupleElement.minLength
    induction h with
    | nil => rfl
    | cons here _ ih => rw [List.findIdx_cons, List.findIdx_cons, here.optional, ih]
  unfold lengthTests
  rw [least, h.length_eq]

namespace IsComparison

variable {T : {α β : Type} → (α → β → Prop) → Build α → Build β → Prop} (comparison : IsComparison T)
include comparison

/-! ## Sequences -/

section
variable {α β γ δ : Type} {R : γ → δ → Prop}

theorem map {m n : Build α} (f : α → γ) (h : T Eq m n) : T Eq (m >>= fun a => Pure.pure (f a))
    (n >>= fun a => Pure.pure (f a)) :=
  comparison.bind h fun _ _ same => comparison.pure (congrArg f same)

theorem mapM {f : α → Build γ} {g : β → Build δ} {as : List α} {bs : List β}
    (items : List.Forall₂ (fun a b => T R (f a) (g b)) as bs) :
    T (List.Forall₂ R) (as.mapM f) (bs.mapM g) := by
  induction items with
  | nil => exact comparison.pure .nil
  | cons here _ ih =>
    rw [List.mapM_cons, List.mapM_cons]
    exact comparison.bind here fun _ _ first =>
      comparison.bind ih fun _ _ rest => comparison.pure (.cons first rest)

/-- Steps for several items, of which some have no result. -/
theorem filterMapM {f : α → Build (Option γ)} {g : β → Build (Option γ)} {as : List α} {bs : List β}
    (items : List.Forall₂ (fun a b => T Eq (f a) (g b)) as bs) :
    T Eq (as.filterMapM f) (bs.filterMapM g) := by
  induction items with
  | nil => exact comparison.pure rfl
  | cons here _ ih =>
    rw [List.filterMapM_cons, List.filterMapM_cons]
    refine comparison.bind here fun found _ same => ?_
    subst same
    cases found with
    | none => exact ih
    | some c => exact comparison.map _ ih

end

/-! ## Parts -/

section
variable {compile compile' : Context → TypeId → Build String} {ctx ctx' : Context}
  {R : TypeId → TypeId → Prop}

theorem arrayBody {element element' : TypeId}
    (part : T Eq (askPart compile ctx element) (askPart compile' ctx' element')) :
    T Eq (ShapeCheck.arrayBody compile ctx element) (ShapeCheck.arrayBody compile' ctx' element') := by
  rw [arrayBody_eq_askPart, arrayBody_eq_askPart]
  exact comparison.map _ part

theorem elementTests {elements elements' : List TupleElement}
    (parts : List.Forall₂ (fun element element' => T Eq
      (compilePart compile ctx element.type element.optional)
      (compilePart compile' ctx' element'.type element'.optional)) elements elements') (position : Nat) :
    T Eq (ShapeCheck.elementTests compile ctx position elements)
      (ShapeCheck.elementTests compile' ctx' position elements') := by
  induction parts generalizing position with
  | nil => exact comparison.pure rfl
  | cons here _ ih =>
    unfold ShapeCheck.elementTests
    refine comparison.bind here fun name _ same => ?_
    subst same
    exact comparison.map _ (ih (position + 1))

theorem tupleCheck {elements elements' : List TupleElement}
    (h : List.Forall₂ (TupleElement.Pairs R) elements elements')
    (parts : ∀ element ∈ elements, ∀ element' ∈ elements', element.Pairs R element' → T Eq
      (compilePart compile ctx element.type element.optional)
      (compilePart compile' ctx' element'.type element'.optional)) :
    T Eq (ShapeCheck.tupleCheck compile ctx elements) (ShapeCheck.tupleCheck compile' ctx' elements') := by
  unfold ShapeCheck.tupleCheck
  rw [lengthTests_eq h]
  exact comparison.map _ (comparison.elementTests ((forall₂_and_mem h).imp
    fun element element' ⟨pair, left, right⟩ => parts element left element' right pair) 0)

/-! ## Objects -/

section
variable (ignores : ctx.options.ignoreMethods = ctx'.options.ignoreMethods)
include ignores

theorem propertyTest? {property property' : Property} (h : property.Pairs R property')
    (part : property.symbolKeyed = false → property.method = false → ∀ type, property.type = some type →
      ∀ type', property'.type = some type' → R type type' → T Eq (compile ctx type) (compile' ctx' type')) :
    T Eq (ShapeCheck.propertyTest? compile ctx property)
      (ShapeCheck.propertyTest? compile' ctx' property') := by
  have typed := h.type
  unfold ShapeCheck.propertyTest?
  rw [← h.symbolKeyed, ← h.method, h.name, h.optional, ignores]
  split
  · exact comparison.pure rfl
  split
  · split
    · exact comparison.pure rfl
    · exact comparison.throw _ _
  rename_i texts field
  cases here : property.type <;> cases there : property'.type <;> rw [here, there] at typed <;> cases typed
  · exact comparison.throw _ _
  · rename_i related
    exact comparison.map _ (part (by simpa using texts) (by simpa using field) _ here _ there related)

omit ignores in
theorem keyLoop {shape shape' : ObjectShape} (h : shape.Pairs R shape')
    (exact : shape.index = none → ctx.exact = ctx'.exact)
    (part : ∀ type, shape.index = some type → ∀ type', shape'.index = some type' → R type type' →
      T Eq (askPart compile ctx type) (askPart compile' ctx' type')) :
    T Eq (ShapeCheck.keyLoop compile ctx shape) (ShapeCheck.keyLoop compile' ctx' shape') := by
  have indexed := h.index
  cases here : shape.index <;> cases there : shape'.index <;> rw [here, there] at indexed <;> cases indexed
  · unfold ShapeCheck.keyLoop
    simp only [here, there, exact here, h.keys_eq]
    exact comparison.pure rfl
  · rename_i related
    rw [keyLoop_eq_askPart compile here, keyLoop_eq_askPart compile' there]
    exact comparison.map _ (part _ here _ there related)

theorem objectBody {shape shape' : ObjectShape} (h : shape.Pairs R shape')
    (exact : shape.index = none → ctx.exact = ctx'.exact)
    (members : ∀ property ∈ shape.properties, ∀ property' ∈ shape'.properties, property.Pairs R property' →
      property.symbolKeyed = false → property.method = false → ∀ type, property.type = some type →
        ∀ type', property'.type = some type' → R type type' → T Eq (compile ctx type) (compile' ctx' type'))
    (signature : ∀ type, shape.index = some type → ∀ type', shape'.index = some type' → R type type' →
      T Eq (askPart compile ctx type) (askPart compile' ctx' type')) :
    T Eq (ShapeCheck.objectBody compile ctx shape) (ShapeCheck.objectBody compile' ctx' shape') := by
  have tests := comparison.filterMapM ((forall₂_and_mem h.properties).imp
    fun property property' ⟨pair, left, right⟩ =>
      comparison.propertyTest? ignores pair (members property left property' right pair))
  refine comparison.bind tests fun tests _ same => ?_
  subst same
  exact comparison.map _ (comparison.keyLoop h exact signature)

end

/-! ## Unions -/

theorem memberCalls {members members' : List TypeId} (parts : List.Forall₂ (fun member member' =>
      T Eq (compile ctx member) (compile' ctx' member')) members members') :
    T Eq (ShapeCheck.memberCalls compile ctx members) (ShapeCheck.memberCalls compile' ctx' members') := by
  refine comparison.bind (comparison.mapM parts) fun names names' same => ?_
  obtain rfl : names = names' := List.forall₂_eq_eq_eq ▸ same
  exact comparison.pure rfl

theorem unionCheck {members members' : List TypeId} (parts : List.Forall₂ (fun member member' =>
      T Eq (compile ctx member) (compile' ctx' member')) members members') :
    T Eq (ShapeCheck.unionCheck compile ctx members) (ShapeCheck.unionCheck compile' ctx' members') := by
  unfold ShapeCheck.unionCheck
  cases parts with
  | nil => exact comparison.pure rfl
  | cons here rest => exact comparison.map _ (comparison.memberCalls (.cons here rest))

end

end IsComparison

end ShapeCheck
