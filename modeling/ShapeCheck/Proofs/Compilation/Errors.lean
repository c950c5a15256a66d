import ShapeCheck.Compile.Composite
import ShapeCheck.Proofs.Failing

set_option autoImplicit false

/-! # How strategies fail

A strategy fails as the compilation of a part does, or as keys are collected, or with an error of its own
about a member: a method that is not ignored, or a member without a type. This is proved once for each
strategy and for any class of errors.

Main fact: `onlyFails_objectBody`.
-/

namespace ShapeCheck

section
variable {E : CompileError → Prop} {depth : Nat} {compile : Context → TypeId → Build String} {ctx : Context}
  {type : TypeId}

theorem onlyFails_compilePart (compiled : OnlyFails E (compile ctx type)) (optional : Bool) :
    OnlyFails E (compilePart compile ctx type optional) := by
  unfold compilePart
  refine compiled.bind fun name => ?_
  split
  · exact Build.onlyFails_optional name
  · exact .pure name

/-! ## Arrays and tuples -/

theorem onlyFails_arrayBody (compiled : OnlyFails E (compile ctx type)) :
    OnlyFails E (arrayBody compile ctx type) := by
  unfold arrayBody
  refine compiled.bind fun name => OnlyFails.read.bind fun registry => ?_
  split <;> exact .pure _

theorem onlyFails_elementTests {elements : List TupleElement}
    (compiled : ∀ element ∈ elements, OnlyFails E (compile ctx element.type)) (position : Nat) :
    OnlyFails E (elementTests compile ctx position elements) := by
  induction elements generalizing position with
  | nil => exact .pure []
  | cons element rest ih =>
    have here := onlyFails_compilePart (compiled element List.mem_cons_self) element.optional
    have others := ih (fun other listed => compiled other (List.mem_cons_of_mem _ listed)) (position + 1)
    exact here.bind fun name => others.bind fun tests => .pure _

theorem onlyFails_tupleCheck {elements : List TupleElement}
    (compiled : ∀ element ∈ elements, OnlyFails E (compile ctx element.type)) :
    OnlyFails E (tupleCheck compile ctx elements) :=
  (onlyFails_elementTests compiled 0).bind fun _ => .pure _

/-! ## Objects -/

/-- The errors that a member has of its own are of the class, and so are those of its type. -/
structure Property.FailsIn (E : CompileError → Prop) (compile : Context → TypeId → Build String)
    (ctx : Context) (property : Property) : Prop where
  method : property.method = true → ctx.options.ignoreMethods = false → E (.methodDisallowed property.name)
  untyped : property.method = false → property.type = none → E (.unsupportedProperty property.name)
  type : property.method = false → ∀ part, property.type = some part → OnlyFails E (compile ctx part)

theorem onlyFails_propertyTest? {property : Property}
    (fails : property.symbolKeyed = false → property.FailsIn E compile ctx) :
    OnlyFails E (propertyTest? compile ctx property) := by
  unfold propertyTest?
  split
  · exact .pure none
  rename_i texts
  have fails := fails (by simpa using texts)
  split
  · rename_i method
    split
    · exact .pure none
    · rename_i kept
      exact .throw (fails.method method (by simpa using kept))
  rename_i field
  have field : property.method = false := by simpa using field
  split
  · exact .throw (fails.untyped field ‹_›)
  · exact (fails.type field _ ‹_›).bind fun name => .pure _

/-- An object fails as its members do, or as the type of its index signature. -/
theorem onlyFails_objectBody {shape : ObjectShape}
    (members : ∀ property ∈ shape.properties, property.symbolKeyed = false → property.FailsIn E compile ctx)
    (index : ∀ part, shape.index = some part → OnlyFails E (compile ctx part)) :
    OnlyFails E (objectBody compile ctx shape) := by
  have loop : OnlyFails E (keyLoop compile ctx shape) := by
    unfold keyLoop
    split
    · exact (index _ ‹_›).bind fun name => OnlyFails.read.bind fun _ => .pure _
    · exact .pure _
  refine (OnlyFails.filterMapM fun property listed => onlyFails_propertyTest? (members property listed)).bind
    fun tests => loop.bind fun loops => .pure _

/-! ## Unions, intersections and keys -/

theorem onlyFails_memberCalls {members : List TypeId}
    (compiled : ∀ member ∈ members, OnlyFails E (compile ctx member)) :
    OnlyFails E (memberCalls compile ctx members) :=
  (OnlyFails.mapM compiled).bind fun _ => .pure _

theorem onlyFails_unionCheck {members : List TypeId}
    (compiled : ∀ member ∈ members, OnlyFails E (compile ctx member)) :
    OnlyFails E (unionCheck compile ctx members) := by
  unfold unionCheck
  split
  · exact .pure _
  · exact (onlyFails_memberCalls compiled).bind fun calls => .pure _

/-- Keys are collected only for the check for superfluous ones. -/
theorem onlyFails_intersectionCheck {members : List TypeId}
    (compiled : ∀ member ∈ members, OnlyFails E (compile (ctx.withExact false) member))
    (collected : ctx.exact = true → OnlyErrors E (ctx.collectKeys depth type)) :
    OnlyFails E (intersectionCheck depth compile ctx type members) := by
  unfold intersectionCheck
  refine (onlyFails_memberCalls compiled).bind fun calls => ?_
  split
  · refine OnlyFails.lift_bind (collected ‹_›) fun keys? _ => ?_
    split
    · rename_i keys _
      have checked : OnlyFails E (exactKeysPredicate keys) := Build.onlyFails_ensure (.pure _)
      exact checked.bind fun name => .pure _
    · exact .pure _
  · exact .pure _

theorem onlyFails_keyofCheck (collected : OnlyErrors E (ctx.collectKeys depth type)) :
    OnlyFails E (keyofCheck depth ctx type) := by
  refine OnlyFails.lift_bind collected fun keys? _ => ?_
  split <;> exact .pure _

end

end ShapeCheck
