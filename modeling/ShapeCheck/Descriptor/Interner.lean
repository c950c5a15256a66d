import Std.Data.HashMap
import ShapeCheck.Descriptor.Combination

set_option autoImplicit false

/-! # Interners

An `Interner` is an arena with an index of its descriptors, so that a descriptor that is stored already is
found without a search. The operations on types are those of the arena; `Operation` lists them, with what
each of them takes. Literals, containers, references and the operators on types are all entered as they are,
and so are unions and intersections that are not to be flattened. Numbers are compared by their bits.
-/

namespace ShapeCheck

deriving instance Hashable for TypeId, ParameterId, DefinitionId, Keyword, ViewKind, Double, Property,
  ObjectShape, TupleElement, Descriptor

/-! ## Operations -/

/-- An operation that enters types, type parameters or definitions. -/
inductive Operation
  /-- Enters a descriptor. -/
  | intern (descriptor : Descriptor)
  /-- Makes a union or an intersection. -/
  | combine (kind : Combination) (members : List TypeId)
  | addParameter (name : String)
  | setDefault (id : ParameterId) (type : TypeId)
  | declare (name : String) (parameters : List ParameterId)
  | define (id : DefinitionId) (body : TypeId)
  | addBase (id : DefinitionId) (base : TypeId)
  | declareAlias (name : String) (body : TypeId)

/-- The types that an operation takes. -/
def Operation.arguments : Operation → List TypeId
  | intern descriptor => descriptor.children
  | combine _ members => members
  | addParameter _ => []
  | setDefault _ type => [type]
  | declare _ _ => []
  | define _ body => [body]
  | addBase _ base => [base]
  | declareAlias _ body => [body]

/-- Performs an operation on an arena; the result are the types that it returns. -/
def Arena.perform (arena : Arena) : Operation → List TypeId × Arena
  | .intern descriptor =>
    let (type, arena) := arena.intern descriptor
    ([type], arena)
  | .combine kind members =>
    let (type, arena) := arena.combine kind members
    ([type], arena)
  | .addParameter name =>
    let (_, type, arena) := arena.addParameter name
    ([type], arena)
  | .setDefault id type => ([], arena.setDefault id type)
  | .declare name parameters => ([], (arena.declare name parameters).2)
  | .define id body => ([], arena.define id body)
  | .addBase id base => ([], arena.addBase id base)
  | .declareAlias name body =>
    let (type, arena) := arena.declareAlias name body
    ([type], arena)

/-! ## Interners -/

/-- An arena with an index of its descriptors. -/
structure Interner where
  arena : Arena
  index : Std.HashMap Descriptor TypeId

namespace Interner

/-- The interner without any descriptor. -/
def empty : Interner := ⟨⟨#[], #[], #[]⟩, ∅⟩

/-- The handle of a descriptor, which is stored if the index does not have it. -/
def intern (interner : Interner) (descriptor : Descriptor) : TypeId × Interner :=
  match interner.index[descriptor]? with
  | some type => (type, interner)
  | none =>
    let arena := interner.arena
    let type : TypeId := ⟨arena.descriptors.size⟩
    (type, {
      arena := { arena with descriptors := arena.descriptors.push descriptor }
      index := interner.index.insert descriptor type })

/-- Enters descriptors one after another. -/
def internAll (interner : Interner) : List Descriptor → Interner
  | [] => interner
  | descriptor :: rest => (interner.intern descriptor).2.internAll rest

/-- The interner that every run starts with: the built-in descriptors are entered in order. -/
def initial : Interner := empty.internAll Arena.initial.descriptors.toList

/-- Makes a union or an intersection of some members. -/
def combine (interner : Interner) (kind : Combination) (members : List TypeId) : TypeId × Interner :=
  match interner.arena.flatten kind.members? members with
  | [] => (kind.neutral, interner)
  | [member] => (member, interner)
  | members => interner.intern (kind.descriptor members)

/-- Adds a type parameter, which has no descriptor yet. -/
def withParameter (interner : Interner) (name : String) : Interner :=
  { interner with
    arena :=
      { interner.arena with parameters := interner.arena.parameters.push ⟨name, none⟩ } }

/-- Declares a definition without parameters and gives it its body. -/
def withAlias (interner : Interner) (name : String) (body : TypeId) : Interner :=
  let (id, arena) := interner.arena.declare name []
  { interner with arena := arena.define id body }

/-- Performs an operation; the result are the types that it returns. -/
def perform (interner : Interner) : Operation → List TypeId × Interner
  | .intern descriptor =>
    let (type, interner) := interner.intern descriptor
    ([type], interner)
  | .combine kind members =>
    let (type, interner) := interner.combine kind members
    ([type], interner)
  | .addParameter name =>
    let (type, interner) :=
      (interner.withParameter name).intern (.parameter ⟨interner.arena.parameters.size⟩)
    ([type], interner)
  | .setDefault id type => ([], { interner with arena := interner.arena.setDefault id type })
  | .declare name parameters =>
    ([], { interner with arena := (interner.arena.declare name parameters).2 })
  | .define id body => ([], { interner with arena := interner.arena.define id body })
  | .addBase id base => ([], { interner with arena := interner.arena.addBase id base })
  | .declareAlias name body =>
    let (type, interner) :=
      (interner.withAlias name body).intern (.reference (interner.arena.declare name []).1 [])
    ([type], interner)

end Interner

end ShapeCheck
